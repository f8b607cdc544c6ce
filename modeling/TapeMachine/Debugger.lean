import TapeMachine.Machine.Run

/-!
# Debugging

A debugger works on one machine by commands: it makes steps, evaluates operators out of turn, calls
single routines, overwrites parts of the state, and looks at frames and dumps.  A command that ends
in a fault leaves what it did before the fault, and the next command goes on from there.
-/

namespace TapeMachine

/-- A routine of the machine, as it can be called by name. -/
inductive Routine where
  | operator (o : Operator)
  | mode (m : Mode)
  | task (t : Task)
  /-- Takes the oldest byte of the buffer. -/
  | dequeue
deriving DecidableEq, Repr

namespace Routine

/-- All routines. -/
def all : List Routine :=
  Operator.all.map .operator ++ Mode.all.map .mode ++ Task.all.map .task ++ [.dequeue]

/-- The name of a routine. -/
def name : Routine → String
  | .operator o => o.name
  | .mode m => m.name
  | .task t => t.name
  | .dequeue => "_deque_fifo"

/-- The routine of a name. -/
def ofName? (s : String) : Option Routine := all.find? fun r => r.name == s

/-- What a routine gives back. -/
inductive Value where
  | nothing
  | frame (f : Frame)
  | number (n : Nat)

/-- A frame that may be missing, as a routine's value. -/
def Value.ofFrame? : Option Frame → Value
  | some f => .frame f
  | none => .nothing

/-- Calls a routine; no frame is put on the stack. -/
def call : Routine → Exec Value
  | .operator o => Value.ofFrame? <$> o.perform
  | .mode m => Value.ofFrame? <$> m.perform
  | .task t => do
    t.perform
    return .nothing
  | .dequeue => do return .number (← Operation.takeFirst).toNat

end Routine

namespace Debugger

/-- A part of the state to be overwritten. -/
inductive Assignment where
  | position (p : Int)
  | pointer (p : Int)
  | target (p : Option Int)
  | symbol (s : Option String)
  | program (s : String)
  | mode (c : Cell)
  | deadDepth (n : Int)
  /-- The positions of the open loops, the outermost first. -/
  | loops (ps : List Int)
  | buffer (bs : List UInt8)
  /-- Single cells, by signed index. -/
  | cells (cs : List (Int × Cell))
deriving Repr

/-- Overwrites single cells, up to the first that does not exist. -/
def assignCells : List (Int × Cell) → Exec Unit
  | [] => pure ()
  | (i, c) :: rest => do
    match Index.set (← Exec.state).cells i c with
    | .ok cs => Exec.update fun s => { s with cells := cs }
    | .error f => throw (.noStore f)
    assignCells rest

/-- Overwrites a part of the state. -/
def assign : Assignment → Exec Unit
  | .position p => Exec.update fun s => { s with position := p }
  | .pointer p => Exec.update fun s => { s with pointer := p }
  | .target p => Exec.update fun s => { s with target := p }
  | .symbol t => Exec.update fun s => { s with symbol := t }
  | .program t => Exec.updateMachine fun m => { m with program := t.toList }
  | .mode c => Exec.update fun s => { s with mode := c }
  | .deadDepth n => Exec.update fun s => { s with deadDepth := n }
  | .loops ps => Exec.update fun s => { s with loops := ps.reverse }
  | .buffer bs => Exec.update fun s => { s with buffer := bs }
  | .cells cs => assignCells cs

/-- The memory that a dump shows. -/
inductive Memory where
  | cells
  | buffer
deriving DecidableEq, Repr

/-- The dump of one memory of a frame. -/
def dump (f : Frame) (memory : Memory) (spec : Option String) : Except Format.Fault String :=
  match memory with
  | .cells => f.dumpCells spec
  | .buffer => f.dumpBuffer spec

/-- Which frames to look at. -/
inductive Selection where
  | all
  /-- By signed indices into the stack. -/
  | only (indices : List Int)
deriving DecidableEq, Repr

/-- The selected frames of a machine. -/
def select (m : Machine) : Selection → List (Except Fault Frame)
  | .all => m.frames.toList.map .ok
  | .only is => is.map m.frame?

/-- What a debugger can be told. -/
inductive Command where
  /-- Makes a number of steps. -/
  | next (n : Nat)
  /-- Runs to the end of the program, for at most so many steps. -/
  | run (limit : Nat)
  /-- Goes back to the state before the first step. -/
  | reset
  /-- Evaluates an operator out of turn. -/
  | evaluate (text : String)
  /-- Calls a routine by name. -/
  | call (name : String)
  /-- Overwrites parts of the state. -/
  | assign (parts : List Assignment)
  /-- Makes a frame. -/
  | frame (noop : Bool) (remark : Option String)
  /-- Makes a dump. -/
  | dump (memory : Memory) (spec : Option String)
  /-- Looks at frames on the stack. -/
  | frames (which : Selection)
  /-- Counts the instructions. -/
  | count
deriving Repr

/-- What a debugger answers. -/
inductive Answer where
  | nothing
  | frame (f : Frame)
  | number (n : Nat)
  | dump (text : Except Format.Fault String)
  | frames (fs : List (Except Fault Frame))
  | count (n : Nat)
  /-- The steps allowed for a run were used up. -/
  | unfinished

/-- What a routine gives back, as an answer. -/
def Answer.ofValue : Routine.Value → Answer
  | .nothing => .nothing
  | .frame f => .frame f
  | .number n => .number n

/-- A computation of the debugger's with the answer to give. -/
def answer {α : Type} (x : Exec α) (f : α → Answer) (w : World) : Except Fault Answer × World :=
  match x.on w with
  | (.ok a, w') => (.ok (f a), w')
  | (.error e, w') => (.error e, w')

/-- Carries out a command. -/
def perform (c : Command) (w : World) : Except Fault Answer × World :=
  match c with
  | .next n => match w.steps n with
    | (.ok _, w') => (.ok .nothing, w')
    | (.error e, w') => (.error e, w')
  | .run limit => match w.run limit with
    | .finished w' => (.ok .nothing, w')
    | .stopped e w' => (.error e, w')
    | .unfinished w' => (.ok .unfinished, w')
  | .reset => (.ok .nothing, { w with machine := w.machine.reset })
  | .evaluate text => answer (Exec.evaluate text) .frame w
  | .call name => match Routine.ofName? name with
    | some r => answer r.call .ofValue w
    | none => (.error (.missingRoutine name), w)
  | .assign parts => answer (parts.forM assign) (fun _ => .nothing) w
  | .frame noop remark => (.ok (.frame { w.machine.toState with noop, remark }), w)
  | .dump memory spec => (.ok (.dump (Debugger.dump w.machine.frame memory spec)), w)
  | .frames which => (.ok (.frames (select w.machine which)), w)
  | .count => (.ok (.count w.machine.size), w)

end Debugger

end TapeMachine
