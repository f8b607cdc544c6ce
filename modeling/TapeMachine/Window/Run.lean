import TapeMachine.Window.View

/-!
# Running programs in the window

Steps that do not read are made as on any other lines.  A step that reads is tried first, to see
what happens before the read; then the program is suspended.  When a text has been entered the step
is made with it, and what happens after the read is shown.

A run that is over leaves its machine (`Window.progress?`), and the window is told of it afterwards
(`Window.told`); a move of the window is both (`Window.move?`).
-/

namespace TapeMachine

namespace Window

/-- The lines of a window: writers on both channels, and readers that have one text. -/
def lines (text : String) : Lines :=
  let line : Line := { input := some [.text text], output := true }
  { console := line, modem := line }

/-- One step of a machine in which a read is given a text. -/
def stepWith (m : Machine) (text : String) : Except Fault Unit × World :=
  Exec.advance.on { machine := m, lines := lines text }

/-- The part of a history before the first read, the channel of the read, and the part after it. -/
def splitAtRead : List Entry → List Entry × Option (Channel × List Entry)
  | [] => ([], none)
  | .event (.read c _) :: rest => ([], some (c, rest))
  | e :: rest =>
    let (before, after) := splitAtRead rest
    (e :: before, after)

/-- Starts or stops the busy sign of a channel, whose pane comes to the front. -/
def setBlocking (w : Window) (c : Channel) (b : Bool) : Window :=
  { w with tab := tabOf c }.signal (.busy b)

/-- The run is over: its machine is the one to be looked at. -/
def complete (w : Window) (m : Machine) : Window :=
  let w := { w with activity := .idle, latest := some m }.signal (.enabled "program_input" true)
  { w with ioCounter := 0 }.setStackDepth

/-- The window with one more run counted that came to its end. -/
def counted (w : Window) : Window := { w with runCounter := w.runCounter + 1 }

/-- A step was made: the run goes on, or it is over for a fault and leaves its machine. -/
def yield (w : Window) (result : Except Fault Unit) (m : Machine) : Window × Option Machine :=
  match result with
  | .ok _ => ({ w with activity := .running m }, none)
  | .error f => ({ w.log (.stopped f) with activity := .running m }, some m)

/-- The program begins to wait for a text on a channel. -/
def suspend (w : Window) (m : Machine) (c : Channel) : Window :=
  let w := w.setBlocking c true
  { w with ioCounter := w.ioCounter + 1, activity := .suspended m c }.updatePane c fun p =>
    { p with ticket := .waiting }

/-- The program goes on with the text that was entered. -/
def resume (w : Window) (m : Machine) (c : Channel) (text : String) : Window × Option Machine :=
  let (result, world) := stepWith m text
  let after := match splitAtRead world.history with
    | (_, some (_, after)) => after
    | (_, none) => []
  ((w.setBlocking c false).display after).yield result world.machine

/-- One step of the running program, or the beginning of its wait, or its end. -/
def proceed (w : Window) (m : Machine) : Window × Option Machine :=
  if m.isFinished then (w.counted, some m)
  else
    let (result, world) := stepWith m ""
    match splitAtRead world.history with
    | (before, some (c, _)) => ((w.display before).suspend m c, none)
    | (all, none) => (w.display all).yield result world.machine

/-- What the run does next, unless there is none or it waits; a run that is over leaves its
machine. -/
def progress? (w : Window) : Option (Window × Option Machine) :=
  match w.activity with
  | .idle => none
  | .running m => some (w.proceed m)
  | .suspended m c =>
    match (w.pane c).ticket with
    | .answered text => some (w.resume m c text)
    | _ => none

/-- The window is told of what a run has left, if the run is over. -/
def told : Window × Option Machine → Window
  | (w, none) => w
  | (w, some m) => w.complete m

/-- One move of the window by itself, unless it is idle or waits. -/
def move? (w : Window) : Option Window := w.progress?.map told

/-- At most `n` moves of the window by itself. -/
def settle : Nat → Window → Window
  | 0, w => w
  | n + 1, w =>
    match w.move? with
    | some w' => settle n w'
    | none => w

/-- Starts the program, its text without blanks at either end, unless one is running. -/
def evaluate (w : Window) : Window :=
  if w.activity.isBusy then { w with printed := w.printed ++ "FIXME\n" }
  else
    let program := Text.trim Text.isBlank w.programText.toList
    let w := w.signal (.enabled "program_input" false)
    { w with activity := .running (Machine.load program) }.log (.loaded (String.ofList program))

/-- Gives up what is running, forgets the counts and the reads, and starts the program. -/
def reset (w : Window) : Window :=
  let forgetRead (p : Pane) : Pane := { p with ticket := .absent }
  { w with
    runCounter := 0, ioCounter := 0, activity := .idle
    console := forgetRead w.console, modem := forgetRead w.modem }.evaluate

/-- Starts the program anew; its text then counts as run. -/
def run (w : Window) : Window := w.setClean.evaluate

/-! ### Input -/

/-- Shows the input of a channel beside its field. -/
def preview (w : Window) (c : Channel) : Window :=
  w.updatePane c fun p => { p with preview := p.input?.getD "" }

/-- Empties the input field of a channel. -/
def clearField (w : Window) (c : Channel) : Window := w.updatePane c fun p => { p with field := "" }

/-- Enters the input of a channel.  It is written in the transcript and given to the latest read;
if that read was given a text before, this is a fault and the field is left as it is. -/
def enter (w : Window) (c : Channel) : Except Fault Unit × Window :=
  match (w.pane c).ticket, (w.pane c).input? with
  | .absent, _ | _, none => (.ok (), w)
  | .answered _, some text => (.error .answeredRead, w.append c false text)
  | .waiting, some text =>
    (.ok (), (w.append c false text).updatePane c fun p =>
      { p with ticket := .answered text, field := "" })

end Window

end TapeMachine
