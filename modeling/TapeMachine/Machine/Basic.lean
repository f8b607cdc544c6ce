import TapeMachine.Dump
import TapeMachine.Fault

/-!
# The machine

A machine has a tape of 256 cells under a pointer, a buffer of bytes, a mode, and a program with
the position of its next instruction.  Open loops are kept on a stack of positions; inside a loop
that was entered on a zero cell the machine is *dead* and only counts brackets.  After every step a
frame is left behind: a copy of the state, with a remark when the step did nothing.
-/

namespace TapeMachine

/-- What a step can change. -/
structure State where
  /-- The tape. -/
  cells : List Cell
  /-- The number of the current cell. -/
  pointer : Int
  /-- The buffer, its oldest byte first. -/
  buffer : List UInt8
  /-- The mode, as it was taken from a cell. -/
  mode : Cell
  /-- The number of open loops that are skipped. -/
  deadDepth : Int
  /-- The positions of the open loops, the innermost first. -/
  loops : List Int
  /-- The position of the next instruction. -/
  position : Int
  /-- The instruction fetched last. -/
  symbol : Option String
  /-- Where the step at hand jumps to. -/
  target : Option Int
deriving DecidableEq, Repr

namespace State

/-- The number of cells on the tape. -/
def tapeLength : Nat := 256

/-- The largest number that counting up reaches. -/
def byteMax : Int := 255

/-- The state before the first step. -/
def initial : State where
  cells := List.replicate tapeLength Cell.zero
  pointer := 0
  buffer := []
  mode := Cell.zero
  deadDepth := 0
  loops := []
  position := 0
  symbol := none
  target := none

instance : Inhabited State := ⟨initial⟩

/-- The machine is inside a loop that it skips. -/
def isDead (s : State) : Bool := s.deadDepth != 0

/-- The current cell. -/
def cell (s : State) : Except Fault Cell :=
  match Index.get s.cells s.pointer with
  | .ok c => .ok c
  | .error f => .error (.noCell f)

end State

/-- Why a step does nothing. -/
inductive Idle where
  /-- The machine is dead. -/
  | dead
  /-- The pointer stands behind the last cell. -/
  | atExtent
  /-- The pointer stands on the first cell. -/
  | atZero
  /-- The cell cannot be counted up. -/
  | cellIsMax
  /-- The cell cannot be counted down. -/
  | cellIsZero
  /-- A loop was opened that is skipped. -/
  | deadLoopBegun
  /-- A loop was closed that was skipped. -/
  | deadLoopEnded
deriving DecidableEq, Repr

/-- The remark on a frame whose step did nothing. -/
def Idle.remark : Idle → String
  | .dead => "in dead loop"
  | .atExtent => "mptr at extent"
  | .atZero => "mptr at zero"
  | .cellIsMax => "mcell[] is max"
  | .cellIsZero => "mcell[] is 0"
  | .deadLoopBegun => "begin loop in dead loop"
  | .deadLoopEnded => "ended dead loop"

/-- A copy of the state, taken in a step. -/
structure Frame extends State where
  /-- The step did nothing. -/
  noop : Bool := false
  /-- A remark on the step. -/
  remark : Option String := none
deriving DecidableEq, Repr

namespace Frame

instance : Inhabited Frame := ⟨{ State.initial with }⟩

/-- The position of the innermost open loop. -/
def loopPosition (f : Frame) : Option Int := f.loops.head?

/-- The number of open loops. -/
def loopDepth (f : Frame) : Nat := f.loops.length

/-- The frame's tape as a dump. -/
def dumpCells (f : Frame) (spec : Option String) : Except Format.Fault String :=
  Dump.ofCells? spec f.cells

/-- The frame's buffer as a dump. -/
def dumpBuffer (f : Frame) (spec : Option String) : Except Format.Fault String :=
  Dump.ofCells? spec (Dump.bufferCells f.buffer)

end Frame

namespace State

/-- The frame of a step that worked. -/
def frame (s : State) : Frame := { s with }

/-- The frame of a step that did nothing. -/
def idleFrame (s : State) (why : Idle) : Frame :=
  { s with noop := true, remark := some why.remark }

end State

/-- A machine with its program and the frames of its steps. -/
structure Machine extends State where
  /-- The program's text. -/
  program : List Char
  /-- The frames, the oldest first. -/
  frames : Array Frame
deriving Repr

namespace Machine

/-- A machine before the first step of a program. -/
def load (program : List Char) : Machine := { State.initial with program, frames := #[] }

instance : Inhabited Machine := ⟨load []⟩

variable (m : Machine)

/-- The number of instructions. -/
def size : Nat := m.program.length

/-- The program's text as it is stored in the buffer. -/
def programBytes : List UInt8 := (String.ofList m.program).toUTF8.data.toList

/-- The machine before the first step of its program. -/
def reset : Machine := load m.program

/-- The run has come to the end of the program, or past it. -/
def isFinished : Bool := decide ((m.size : Int) ≤ m.position)

/-- The frame that a signed index selects. -/
def frame? (i : Int) : Except Fault Frame :=
  match Index.get m.frames.toList i with
  | .ok f => .ok f
  | .error e => .error (.noFrame e)

end Machine

end TapeMachine
