import TapeMachine.Machine.Basic
import TapeMachine.Machine.Line

/-!
# Computations on a machine

A `World` is a machine with its lines and the trace of what happened.  An `Exec` computation works
on a world and may end in a fault; what it did before the fault remains done.
-/

namespace TapeMachine

/-- A machine among its lines. -/
structure World where
  /-- The machine. -/
  machine : Machine
  /-- The lines of both channels. -/
  lines : Lines := {}
  /-- What happened, the latest first. -/
  trace : List Entry := []
deriving Inhabited

namespace World

/-- What happened, in order. -/
def history (w : World) : List Entry := w.trace.reverse

/-- The events on the lines, in order. -/
def events (w : World) : List Event := w.history.filterMap Entry.event?

/-- The notes from a severity on, in order. -/
def notes (w : World) (severity : Int) : List Note :=
  (w.history.filterMap Entry.note?).filter fun n => decide (severity ≤ n.level.severity)

/-- The world with an empty trace. -/
def forget (w : World) : World := { w with trace := [] }

end World

/-- A computation on a world that may end in a fault. -/
abbrev Exec := ExceptT Fault (StateM World)

namespace Exec

variable {α : Type}

/-- Carries a computation out: its result and the world it leaves. -/
def on (x : Exec α) (w : World) : Except Fault α × World := (x.run).run w

/-- The result of a computation without effect. -/
def lift : Except Fault α → Exec α
  | .ok a => pure a
  | .error f => throw f

/-- Adds an entry to the trace. -/
def record (e : Entry) : Exec Unit := modify fun w => { w with trace := e :: w.trace }

/-- Adds a note to the trace. -/
def note (n : Note) : Exec Unit := record (.note n)

/-- The machine. -/
def machine : Exec Machine := do return (← get).machine

/-- Changes the machine. -/
def updateMachine (f : Machine → Machine) : Exec Unit :=
  modify fun w => { w with machine := f w.machine }

/-- The state of the machine. -/
def state : Exec State := do return (← machine).toState

/-- Changes the state of the machine. -/
def update (f : State → State) : Exec Unit :=
  updateMachine fun m => { m with toState := f m.toState }

/-- The frame of a step that worked. -/
def frame : Exec Frame := do return (← state).frame

/-- The frame of a step that did nothing. -/
def idle (why : Idle) : Exec Frame := do return (← state).idleFrame why

/-! ### The tape and the buffer -/

/-- The current cell. -/
def cell : Exec Cell := do lift (← state).cell

/-- Replaces the current cell. -/
def store (c : Cell) : Exec Unit := do
  let s ← state
  match Index.set s.cells s.pointer c with
  | .ok cs => update fun s => { s with cells := cs }
  | .error f => throw (.noStore f)

/-- The buffer. -/
def buffer : Exec (List UInt8) := do return (← state).buffer

/-- Replaces the buffer. -/
def setBuffer (bs : List UInt8) : Exec Unit := update fun s => { s with buffer := bs }

/-! ### The lines -/

/-- A writer is attached to a channel. -/
def hasWriter (c : Channel) : Exec Bool := do return ((← get).lines.get c).output

/-- Hands something to the writer of a channel. -/
def write (c : Channel) (x : Writing) : Exec Unit := do
  match ((← get).lines.get c).refusal? x with
  | some f => throw f
  | none => record (.event (.wrote c x.shown))

/-- Asks the reader of a channel, if one is attached: what was read may be a text or nothing. -/
def ask (c : Channel) : Exec (Option (Option String)) := do
  match ((← get).lines.get c).ask? with
  | none => return none
  | some (reply, line) =>
    modify fun w => { w with lines := w.lines.set c line }
    record (.event (.read c reply))
    match reply with
    | .text s => return some (some s)
    | .nothing => return some none
    | .failure reason => throw (.lineFailure reason)

end Exec

end TapeMachine
