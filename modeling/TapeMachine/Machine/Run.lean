import TapeMachine.Machine.Step

/-!
# Runs

`World.run` makes steps until the program ends, a step ends in a fault, or the given number of
steps is used up.  An `Interpreter` runs programs one after another on the same lines, each on a
machine of its own, and counts the runs that came to their end.
-/

namespace TapeMachine

/-- How a bounded run ends. -/
inductive Verdict where
  /-- The program came to its end. -/
  | finished (w : World)
  /-- A step ended in a fault. -/
  | stopped (fault : Fault) (w : World)
  /-- The steps were used up. -/
  | unfinished (w : World)
deriving Inhabited

namespace World

/-- At most `n` steps of the program. -/
def run : Nat → World → Verdict
  | 0, w => if w.machine.isFinished then .finished w else .unfinished w
  | n + 1, w =>
    if w.machine.isFinished then .finished w
    else match Exec.advance.on w with
      | (.ok _, w') => run n w'
      | (.error f, w') => .stopped f w'

/-- Up to `n` steps, stopping at the first fault. -/
def steps : Nat → World → Except Fault Unit × World
  | 0, w => (.ok (), w)
  | n + 1, w =>
    match Exec.advance.on w with
    | (.ok _, w') => steps n w'
    | (.error f, w') => (.error f, w')

/-- A machine before the first step of a program, with the loading noted. -/
def load (lines : Lines) (program : String) : World where
  machine := Machine.load program.toList
  lines := lines
  trace := [.note (.loaded program)]

end World

/-- What is left of a run. -/
structure Report where
  /-- The machine as the run left it. -/
  machine : Machine
  /-- What happened, in order. -/
  history : List Entry
deriving Inhabited

namespace Report

/-- The events on the lines, in order. -/
def events (r : Report) : List Event := r.history.filterMap Entry.event?

/-- The notes from a severity on, in order. -/
def notes (r : Report) (severity : Int) : List Note :=
  (r.history.filterMap Entry.note?).filter fun n => decide (severity ≤ n.level.severity)

end Report

/-- Lines on which programs are run one after another. -/
structure Interpreter where
  /-- The lines of both channels. -/
  lines : Lines := {}
  /-- The number of runs that came to their end. -/
  runCounter : Nat := 0
deriving DecidableEq, Repr, Inhabited

namespace Interpreter

/-- Runs a program for at most `n` steps; a fault is noted and the run is then not counted.  There
is no report when the steps are used up. -/
def run (n : Nat) (i : Interpreter) (program : String) : Option (Report × Interpreter) :=
  match (World.load i.lines program).run n with
  | .finished w =>
    some (⟨w.machine, w.history⟩, { lines := w.lines, runCounter := i.runCounter + 1 })
  | .stopped f w =>
    some (⟨w.machine, w.history ++ [.note (.stopped f)]⟩, { i with lines := w.lines })
  | .unfinished _ => none

/-- Runs programs one after another, with the count after each. -/
def runAll (n : Nat) (i : Interpreter) : List String → Option (List (Report × Nat))
  | [] => some []
  | p :: ps => do
    let (r, i') ← i.run n p
    let rest ← i'.runAll n ps
    return (r, i'.runCounter) :: rest

/-- Asks the reader of a channel: its reply, or `none` if no reader is attached. -/
def read (i : Interpreter) (c : Channel) : Option Reply × Interpreter :=
  match (i.lines.get c).ask? with
  | none => (none, i)
  | some (r, l) => (some r, { i with lines := i.lines.set c l })

/-- Writes on a channel: the number of characters written, or `none` if no writer is attached. -/
def write (i : Interpreter) (c : Channel) (text : String) : Option Nat :=
  if (i.lines.get c).output then some text.length else none

end Interpreter

end TapeMachine
