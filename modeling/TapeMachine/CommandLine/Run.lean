import TapeMachine.CommandLine.Arguments
import TapeMachine.Machine.Run

/-!
# The command line

`CommandLine.run` is the whole program as a function: from the arguments and the text on standard
input to what is written on the two output streams, what is left unread, and how it ends.  A
channel that is attached to the standard streams reads one character at a time; what it writes is
encoded, so that half of a surrogate pair is refused.
-/

namespace TapeMachine

namespace CommandLine

/-- How the program ends. -/
inductive Ending where
  /-- With an exit code. -/
  | exit (code : Nat)
  /-- With a fault that nothing catches. -/
  | fault (f : Fault)
  /-- Not within the number of steps allowed. -/
  | unfinished
deriving DecidableEq, Repr

/-- What is to be seen of the program. -/
structure Outcome where
  /-- How it ends. -/
  ending : Ending
  /-- What it writes on standard output. -/
  stdout : String
  /-- What it writes on the error stream. -/
  stderr : String
  /-- What it leaves unread. -/
  unread : String
deriving DecidableEq, Repr

/-- The summary of the options. -/
def usage : String := "usage: tbas [-h] [-c | -m] [-d] [-f F] program\n"

/-- The explanation of the options. -/
def helpText : String :=
  usage ++ "\ntbas\n\npositional arguments:\n  program\n\noptions:\n" ++
    "  -h, --help   show this help message and exit\n" ++
    "  -c           attach console to STD*\n" ++
    "  -m           attach modem to STD*\n" ++
    "  -d, --debug\n" ++
    "  -f F         print contents of frame\n"

/-- A text as the replies of a reader that takes one character at a time. -/
def repliesOf (text : String) : List Reply := text.toList.map fun c => .text (String.singleton c)

/-- The text that is left of such a reader. -/
def textOf (rs : List Reply) : String :=
  String.join (rs.map fun r => match r with
    | .text s => s
    | _ => "")

/-- The lines that the settings ask for. -/
def linesOf (s : Arguments.Settings) (stdin : String) : Lines :=
  let attached : Line := { input := some (repliesOf stdin), output := true, encodes := true }
  if s.console then { console := attached }
  else if s.modem then { modem := attached }
  else {}

/-- The text that is left unread on the lines that the settings ask for. -/
def unreadOn (s : Arguments.Settings) (stdin : String) (ls : Lines) : String :=
  if s.console then textOf (ls.console.input.getD [])
  else if s.modem then textOf (ls.modem.input.getD [])
  else stdin

/-- What was written, all channels together. -/
def writtenText (es : List Event) : String :=
  String.join (es.map fun e => match e with
    | .wrote _ s => s
    | .read _ _ => "")

/-- A note as it goes to the error stream. -/
def logLine (debug : Bool) (n : Note) : String :=
  if debug then n.level.name ++ ":tbas.tbas:" ++ n.message ++ "\n" else n.message ++ "\n"

/-- The severity from which on notes go to the error stream. -/
def threshold (debug : Bool) : Int :=
  if debug then Level.debug.severity else Level.warning.severity

/-- The dump of the frame that is to be shown; frame zero is not. -/
def shownFrame (m : Machine) : Option Int → Except Fault String
  | none | some 0 => .ok ""
  | some i => do
    let f ← m.frame? i
    match f.dumpCells (some "03d") with
    | .ok text => return text ++ "\n"
    | .error e => throw (.format e)

/-- Runs a program as the settings say, for at most `limit` steps. -/
def execute (limit : Nat) (program : String) (s : Arguments.Settings) (stdin : String) : Outcome :=
  match Interpreter.run limit { lines := linesOf s stdin } program with
  | none => { ending := .unfinished, stdout := "", stderr := "", unread := stdin }
  | some (r, i) =>
    let written := writtenText r.events ++ "\n\n"
    let stderr := String.join ((r.notes (threshold s.debug)).map (logLine s.debug))
    let unread := unreadOn s stdin i.lines
    match shownFrame r.machine s.frame with
    | .ok text => { ending := .exit 0, stdout := written ++ text, stderr, unread }
    | .error f => { ending := .fault f, stdout := written, stderr, unread }

/-- The whole program, for at most `limit` steps of the machine. -/
def run (limit : Nat) (args : List String) (stdin : String) : Outcome :=
  match Arguments.parse args with
  | .ok (program, s) => execute limit program s stdin
  | .error .help => { ending := .exit 0, stdout := helpText, stderr := "", unread := stdin }
  | .error (.refused f) =>
    { ending := .exit 2, stdout := "", stderr := usage ++ "tbas: error: " ++ f.message ++ "\n",
      unread := stdin }

/-- The arguments attach a channel to the standard streams. -/
def readsInput (args : List String) : Bool :=
  match Arguments.parse args with
  | .ok (_, s) => s.console || s.modem
  | .error _ => false

/-- The demonstration, which asks the interpreter for an option that it does not have. -/
def demonstration (stdin : String) : Outcome :=
  { ending := .fault (.unknownOption "console"), stdout := "", stderr := "", unread := stdin }

end CommandLine

end TapeMachine
