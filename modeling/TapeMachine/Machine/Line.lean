import TapeMachine.Log

/-!
# Lines

The machine talks on two channels, a console and a modem.  Each has a line on which a reader and a
writer may be attached.  A reader is the list of its replies to come; a reader that has run out
replies with the empty text.  What happens on the lines, and what is noted in the log, is kept
together in the order in which it happened, as a list of entries.

A writer is handed a text, or half of a surrogate pair, which has a code but is no character.  A
writer that encodes what it is handed takes characters only.
-/

namespace TapeMachine

/-- What the machine talks on. -/
inductive Channel where
  | console
  | modem
deriving DecidableEq, Repr

/-- What a reader gives when it is asked. -/
inductive Reply where
  /-- A text, of any length. -/
  | text (s : String)
  /-- Nothing. -/
  | nothing
  /-- A failure, for a reason. -/
  | failure (reason : String)
deriving DecidableEq, Repr

/-- What is handed to a writer. -/
inductive Writing where
  /-- A text. -/
  | text (s : String)
  /-- Half of a surrogate pair, which stands in no text. -/
  | surrogate (code : Nat)
deriving DecidableEq, Repr

/-- What is handed over, as it is shown: half of a pair by its escape. -/
def Writing.shown : Writing → String
  | .text s => s
  | .surrogate n => String.ofList (Text.Quoted.escape n)

/-- What happens on a line. -/
inductive Event where
  /-- A text was written. -/
  | wrote (channel : Channel) (text : String)
  /-- A reader was asked and replied. -/
  | read (channel : Channel) (reply : Reply)
deriving DecidableEq, Repr

/-- What is to be seen of a running machine. -/
inductive Entry where
  | note (n : Note)
  | event (e : Event)
deriving DecidableEq, Repr

namespace Entry

/-- The event of an entry. -/
def event? : Entry → Option Event
  | .event e => some e
  | .note _ => none

/-- The note of an entry. -/
def note? : Entry → Option Note
  | .note n => some n
  | .event _ => none

/-- The entry tells of a read. -/
def isRead : Entry → Bool
  | .event (.read _ _) => true
  | _ => false

end Entry

/-- A line: its reader, if one is attached, and whether a writer is. -/
structure Line where
  /-- The replies to come of the reader. -/
  input : Option (List Reply) := none
  /-- A writer is attached. -/
  output : Bool := false
  /-- The writer encodes what it is handed. -/
  encodes : Bool := false
deriving DecidableEq, Repr, Inhabited

namespace Line

/-- The next reply of an attached reader, and the line after it. -/
def ask? (l : Line) : Option (Reply × Line) :=
  match l.input with
  | none => none
  | some [] => some (.text "", l)
  | some (r :: rs) => some (r, { l with input := some rs })

/-- Why the writer does not take what it is handed. -/
def refusal? (l : Line) : Writing → Option Fault
  | .text _ => none
  | .surrogate n => if l.encodes then some (.unencodable n) else none

end Line

/-- The lines of both channels. -/
structure Lines where
  console : Line := {}
  modem : Line := {}
deriving DecidableEq, Repr, Inhabited

namespace Lines

/-- The line of a channel. -/
def get (ls : Lines) : Channel → Line
  | .console => ls.console
  | .modem => ls.modem

/-- The lines with that of a channel replaced. -/
def set (ls : Lines) (c : Channel) (l : Line) : Lines :=
  match c with
  | .console => { ls with console := l }
  | .modem => { ls with modem := l }

end Lines

end TapeMachine
