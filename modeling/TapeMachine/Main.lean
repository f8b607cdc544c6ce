import TapeMachine.CommandLine.Run

/-!
# The program

The program reads standard input if a channel is attached to it, and writes what
`CommandLine.run` says.  A run that does not end within a number of steps is tried again with twice
as many.
-/

namespace TapeMachine

namespace CommandLine

/-- All of standard input, behind what was read before. -/
partial def readAll (input : IO.FS.Stream) (before : String) : IO String := do
  let line ← input.getLine
  if line.isEmpty then return before else readAll input (before ++ line)

/-- Runs until the program ends, with twice as many steps at each trial. -/
partial def runToEnd (limit : Nat) (args : List String) (stdin : String) : IO Outcome := do
  let outcome := run limit args stdin
  if outcome.ending = .unfinished then runToEnd (2 * limit) args stdin else return outcome

end CommandLine

end TapeMachine

open TapeMachine in
/-- Writes what the program has to say and gives its exit code. -/
def main (args : List String) : IO UInt32 := do
  let stdin ←
    if CommandLine.readsInput args then CommandLine.readAll (← IO.getStdin) "" else pure ""
  let outcome ← CommandLine.runToEnd 1000000 args stdin
  IO.print outcome.stdout
  IO.eprint outcome.stderr
  match outcome.ending with
  | .exit code => return code.toUInt32
  | .fault f =>
    IO.eprintln f.message
    return 1
  | .unfinished => return 1
