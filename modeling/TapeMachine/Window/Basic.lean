import TapeMachine.Form
import TapeMachine.Machine.Run
import TapeMachine.Text.Blank

/-!
# The window

A window has the text of a program, a pane for each channel, the log, and a view on the frames of
the program that ended last.  It runs one program at a time; when the program reads from a channel
it is suspended until a text is entered in the pane of that channel.

What the window asks of its widgets beside their texts, such as enabling them or moving the text
cursor, is kept as a list of signals.
-/

namespace TapeMachine

/-- What a window asks of its widgets. -/
inductive Signal where
  /-- A handler is connected. -/
  | connected (handler : String)
  /-- A widget is enabled or disabled. -/
  | enabled (widget : String) (b : Bool)
  /-- The program text gets a style sheet. -/
  | styled (sheet : String)
  /-- The text cursor is moved. -/
  | cursor (position : Int)
  /-- A busy sign is started or stopped. -/
  | busy (b : Bool)
deriving DecidableEq, Repr

/-- What became of the latest read from a channel. -/
inductive Ticket where
  /-- Nothing was read yet. -/
  | absent
  /-- The read waits for a text. -/
  | waiting
  /-- The read was given a text. -/
  | answered (text : String)
deriving DecidableEq, Repr

/-- The pane of a channel. -/
structure Pane where
  /-- What was entered and written. -/
  transcript : String := ""
  /-- The text in the input field. -/
  field : String := ""
  /-- The preview of the input. -/
  preview : String := ""
  /-- The latest read. -/
  ticket : Ticket := .absent
deriving DecidableEq, Repr, Inhabited

namespace Pane

/-- The input, unless the field is empty. -/
def input? (p : Pane) : Option String := if p.field.isEmpty then none else some p.field

/-- A read is waiting for a text. -/
def isWaiting (p : Pane) : Bool := p.ticket == .waiting

end Pane

/-- The table of the state of a frame. -/
structure Status where
  /-- The number of the frame. -/
  frame : String
  /-- The number of the last frame. -/
  depth : String
  /-- The state in the frame. -/
  rows : List String
deriving DecidableEq, Repr, Inhabited

namespace Status

/-- The table from its texts. -/
def ofTexts : List String → Status
  | frame :: depth :: rows => ⟨frame, depth, rows⟩
  | _ => ⟨"", "", []⟩

/-- The texts of the table. -/
def texts (s : Status) : List String := s.frame :: s.depth :: s.rows

/-- The table with one text replaced. -/
def set (s : Status) (row : Nat) (text : String) : Status := ofTexts (s.texts.set row text)

end Status

/-- A slider. -/
structure Slider where
  value : Int := 0
  maximum : Int := 0
deriving DecidableEq, Repr, Inhabited

/-- What a window is doing. -/
inductive Activity where
  /-- No program is run. -/
  | idle
  /-- A program is run. -/
  | running (m : Machine)
  /-- The next step of a program waits for a text on a channel. -/
  | suspended (m : Machine) (channel : Channel)
deriving Inhabited

namespace Activity

/-- A program is run, or waits. -/
def isBusy : Activity → Bool
  | .idle => false
  | _ => true

end Activity

/-- The window. -/
structure Window where
  /-- The text of the program. -/
  programText : String := ""
  /-- The text was changed since it was run. -/
  dirty : Bool := false
  /-- The console's pane. -/
  console : Pane := {}
  /-- The modem's pane. -/
  modem : Pane := {}
  /-- The number of the pane in front. -/
  tab : Int := 0
  /-- The table of the state of a frame. -/
  status : Status := default
  /-- The dump of the cells. -/
  cellsText : String := ""
  /-- The dump of the buffer. -/
  bufferText : String := ""
  /-- The log. -/
  logText : String := ""
  /-- The number of the level that is chosen for the log. -/
  levelIndex : Int := 0
  /-- The severity from which on notes are logged. -/
  threshold : Int := 0
  /-- The slider that selects a frame. -/
  slider : Slider := {}
  /-- The number of runs that came to their end. -/
  runCounter : Nat := 0
  /-- The number of reads in the run. -/
  ioCounter : Nat := 0
  /-- What the window is doing. -/
  activity : Activity := .idle
  /-- The machine of the run that was completed last. -/
  latest : Option Machine := none
  /-- What was asked of the widgets, the latest first. -/
  signals : List Signal := []
  /-- What was printed. -/
  printed : String := ""
deriving Inhabited

namespace Window

/-- The pane of a channel. -/
def pane (w : Window) : Channel → Pane
  | .console => w.console
  | .modem => w.modem

/-- Changes the pane of a channel. -/
def updatePane (w : Window) (c : Channel) (f : Pane → Pane) : Window :=
  match c with
  | .console => { w with console := f w.console }
  | .modem => { w with modem := f w.modem }

@[simp] theorem pane_updatePane_self (w : Window) (c : Channel) (f : Pane → Pane) :
    (w.updatePane c f).pane c = f (w.pane c) := by
  cases c <;> rfl

theorem pane_updatePane_of_ne {c d : Channel} (h : d ≠ c) (w : Window) (f : Pane → Pane) :
    (w.updatePane c f).pane d = w.pane d := by
  cases c <;> cases d
  · exact absurd rfl h
  · rfl
  · rfl
  · exact absurd rfl h

/-- The number of the pane of a channel. -/
def tabOf : Channel → Int
  | .console => 0
  | .modem => 1

/-- Asks something of the widgets. -/
def signal (w : Window) (s : Signal) : Window := { w with signals := s :: w.signals }

/-- The window with what was asked and printed forgotten. -/
def forget (w : Window) : Window := { w with signals := [], printed := "" }

/-! ### Transcripts -/

/-- A line of a transcript: the direction, the numbers of the run and of the read, and the text. -/
def transcriptLine (w : Window) (isOutput : Bool) (text : String) : String :=
  (if isOutput then "Out" else "In ") ++ "[" ++ String.ofList (Numeral.ofNat 10 w.runCounter) ++
    "." ++ String.ofList (Numeral.ofNat 10 w.ioCounter) ++ "]: " ++ text

/-- Appends a line to the transcript of a channel; lines are not divided. -/
def append (w : Window) (c : Channel) (isOutput : Bool) (text : String) : Window :=
  w.updatePane c fun p => { p with transcript := p.transcript ++ w.transcriptLine isOutput text }

/-! ### The log -/

/-- The severity from which on notes are logged; without a level of its own, a log takes warnings. -/
def logsFrom (w : Window) : Int := if w.threshold = 0 then Level.warning.severity else w.threshold

/-- A note as it is logged. -/
def logLine (n : Note) : String := n.level.name ++ ": " ++ n.message

/-- Takes the threshold of the log from the level that is chosen. -/
def setLogLevel (w : Window) : Window := { w with threshold := (w.levelIndex + 1) * 10 }

/-- Appends a note to the log if it is weighty enough. -/
def log (w : Window) (n : Note) : Window :=
  if w.logsFrom ≤ n.level.severity then { w with logText := w.logText ++ logLine n } else w

/-- Shows what happened in a run. -/
def display (w : Window) (es : List Entry) : Window :=
  es.foldl (fun w e => match e with
    | .note n => w.log n
    | .event (.wrote c text) => w.append c true text
    | .event (.read _ _) => w) w

/-! ### The program text -/

/-- The program text counts as run. -/
def setClean (w : Window) : Window := { w with dirty := false }.signal (.styled "")

/-- The program text counts as changed. -/
def setDirty (w : Window) : Window :=
  { w with dirty := true }.signal (.styled "border: 1px solid red")

/-- Where a file that belongs to the window is: names that start at the root stay as they are. -/
def resourcePath (directory filename : String) : String :=
  match filename.toList with
  | '/' :: _ => filename
  | _ => directory ++ "/" ++ filename

end Window

end TapeMachine
