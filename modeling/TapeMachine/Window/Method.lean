import TapeMachine.Window.Run

/-!
# The methods of the window

What can be done to a window: the handlers of its widgets' signals, and the methods that they are
made of.  `Window.opened` is a new window before it has made a move by itself.
-/

namespace TapeMachine

/-- A handler of a signal. -/
inductive Handler where
  | frameChosen
  | frameBack
  | frameAhead
  | runStep
  | runToBreakpoint
  | runToEnd
  | reset
  | resetRunStep
  | resetRunToBreakpoint
  | resetRunToEnd
  | removeBreakpoints
  | cellsFormatChosen
  | bufferFormatChosen
  | switched (c : Channel)
  | fieldReset (c : Channel)
  | entered (c : Channel)
  | returnPressed
  | edited (c : Channel)
  | levelChosen
  | logReset
  | programEdited
deriving DecidableEq, Repr

/-- The word for a channel in the names of its widgets. -/
def Channel.word : Channel → String
  | .console => "console"
  | .modem => "modem"

namespace Handler

/-- All handlers, sorted by name. -/
def all : List Handler :=
  [.bufferFormatChosen, .switched .console, .entered .console, .returnPressed, .edited .console,
   .fieldReset .console, .frameBack, .frameChosen, .frameAhead, .levelChosen, .logReset,
   .cellsFormatChosen, .switched .modem, .entered .modem, .edited .modem, .fieldReset .modem,
   .programEdited, .removeBreakpoints, .reset, .resetRunStep, .resetRunToBreakpoint,
   .resetRunToEnd, .runStep, .runToBreakpoint, .runToEnd]

theorem mem_all (h : Handler) : h ∈ all := by
  cases h with
  | switched c | fieldReset c | entered c | edited c => cases c <;> decide
  | _ => decide

/-- The widget and the signal that a handler belongs to. -/
def source : Handler → String × String
  | frameChosen => ("frame_slider", "valueChanged")
  | frameBack => ("frame_down_button", "clicked")
  | frameAhead => ("frame_up_button", "clicked")
  | runStep => ("run_step_button", "clicked")
  | runToBreakpoint => ("run_to_breakpoint_button", "clicked")
  | runToEnd => ("run_to_end_button", "clicked")
  | reset => ("reset_button", "clicked")
  | resetRunStep => ("reset_run_step_button", "clicked")
  | resetRunToBreakpoint => ("reset_run_to_breakpoint_button", "clicked")
  | resetRunToEnd => ("reset_run_to_end_button", "clicked")
  | removeBreakpoints => ("remove_breakpoints_button", "clicked")
  | cellsFormatChosen => ("memory_select", "currentIndexChanged")
  | bufferFormatChosen => ("buffer_select", "currentIndexChanged")
  | switched c => (c.word ++ "_enable", "stateChanged")
  | fieldReset c => (c.word ++ "_reset_button", "clicked")
  | entered c => (c.word ++ "_enter_button", "clicked")
  | returnPressed => ("console_input", "returnPressed")
  | edited c => (c.word ++ "_input", "textEdited")
  | levelChosen => ("log_level", "currentIndexChanged")
  | logReset => ("log_reset_button", "clicked")
  | programEdited => ("program_input", "textChanged")

/-- The name of a handler. -/
def name (h : Handler) : String := h.source.1 ++ "_" ++ h.source.2

end Handler

/-- A value that is given to a method. -/
inductive Value where
  | nothing
  | flag (b : Bool)
  | number (n : Int)
  | text (s : String)
deriving DecidableEq, Repr

namespace Value

/-- The value counts as true. -/
def isTrue : Value → Bool
  | nothing => false
  | flag b => b
  | number n => n != 0
  | text s => !s.isEmpty

/-- The value as text. -/
def shown : Value → String
  | nothing => "None"
  | flag b => if b then "True" else "False"
  | number n => String.ofList (Numeral.decimal n)
  | text s => s

/-- The value as a number. -/
def asInt : Value → Int
  | number n => n
  | flag true => 1
  | _ => 0

end Value

/-- A method of the window. -/
inductive Method where
  | handler (h : Handler)
  | viewFrame
  | setStackDepth
  | setStatus
  | evaluate
  | resetAll
  | setLogLevel
  | setClean
  | setDirty
  | setBlocking (c : Channel)
  | write (c : Channel)
  | append (c : Channel)
  | cast (c : Channel)
  | preview (c : Channel)
  | process (c : Channel)
deriving DecidableEq, Repr

namespace Window

/-- What a method gives back, or why it stopped, and the window after it. -/
abbrev Outcome := Except Fault (Option String) × Window

/-- The outcome of a method that gives nothing back and does not stop. -/
def done (w : Window) : Outcome := (.ok none, w)

/-- The outcome of a method that gives nothing back. -/
def attempted (r : Except Fault Unit × Window) : Outcome :=
  match r with
  | (.ok _, w) => (.ok none, w)
  | (.error f, w) => (.error f, w)

/-- Handles a signal that comes with a number. -/
def handle (w : Window) (i : Int) : Handler → Outcome
  | .frameChosen => attempted (w.viewFrame i)
  | .frameBack => done w.frameBack
  | .frameAhead => done w.frameAhead
  | .resetRunToEnd => done w.run
  | .fieldReset c => done (w.clearField c)
  | .entered c => attempted (w.enter c)
  | .returnPressed => attempted (w.enter .console)
  | .edited c => done (w.preview c)
  | .levelChosen => done w.setLogLevel
  | .logReset => done { w with logText := "" }
  | .programEdited => done w.setDirty
  | .runStep | .runToBreakpoint | .runToEnd | .reset | .resetRunStep | .resetRunToBreakpoint
  | .removeBreakpoints | .cellsFormatChosen | .bufferFormatChosen | .switched _ => done w

/-- Calls a method with values, of which missing ones count as nothing. -/
def call (w : Window) (args : List Value) : Method → Outcome
  | .handler h => w.handle (args.headD .nothing).asInt h
  | .viewFrame => attempted (w.viewFrame (args.headD .nothing).asInt)
  | .setStackDepth =>
    match w.latest with
    | none => (.error .nothingToShow, w)
    | some _ => done w.setStackDepth
  | .setStatus => done { w with
      status := w.status.set (args.headD .nothing).asInt.toNat (args.getD 1 .nothing).shown }
  | .evaluate => done w.evaluate
  | .resetAll => done w.reset
  | .setLogLevel => done w.setLogLevel
  | .setClean => done w.setClean
  | .setDirty => done w.setDirty
  | .setBlocking c => done (w.setBlocking c (args.headD (.flag true)).isTrue)
  | .write c => done (w.append c true (args.headD .nothing).shown)
  | .append c => done (w.append c (args.headD .nothing).isTrue (args.getD 1 .nothing).shown)
  | .cast c => (.ok (w.pane c).input?, w)
  | .preview c => done (w.preview c)
  | .process c => attempted (w.enter c)

/-! ### A new window -/

/-- The widgets that have no use yet. -/
def unused : List String :=
  ["run_step_button", "run_to_breakpoint_button", "run_to_end_button", "reset_button",
   "reset_run_step_button", "reset_run_to_breakpoint_button", "remove_breakpoints_button",
   "buffer_address", "buffer_input", "buffer_equal_button", "buffer_zero_button",
   "buffer_zero_all_button", "memory_address", "memory_input", "memory_equal_button",
   "memory_zero_button", "memory_zero_all_button", "console_enable", "modem_enable"]

/-- The window as the form leaves it. -/
def ofForm : Window where
  programText := Form.text "program_input"
  console := { preview := Form.text "console_input_value" }
  modem := { preview := Form.text "modem_input_value" }
  tab := Form.current "inputs_tabs"
  status := Status.ofTexts Form.statusTexts
  levelIndex := Form.current "log_level"

/-- A new window: its handlers are connected, the busy signs stopped, the program started and the
unused widgets disabled. -/
def opened : Window :=
  let w := Handler.all.foldl (fun w h => w.signal (.connected h.name)) ofForm
  let w := ((w.signal (.busy false)).signal (.busy false)).reset.setLogLevel
  unused.foldl (fun w name => w.signal (.enabled name false)) w

/-! ### Widgets by name -/

/-- Replaces the text of a widget; the widget's handler is not called. -/
def setText (w : Window) (widget text : String) : Window :=
  match widget with
  | "program_input" => { w with programText := text }
  | "console_input" => { w with console := { w.console with field := text } }
  | "console_input_value" => { w with console := { w.console with preview := text } }
  | "console_output" => { w with console := { w.console with transcript := text } }
  | "modem_input" => { w with modem := { w.modem with field := text } }
  | "modem_input_value" => { w with modem := { w.modem with preview := text } }
  | "modem_output" => { w with modem := { w.modem with transcript := text } }
  | "memory_buffer" => { w with cellsText := text }
  | "io_buffer" => { w with bufferText := text }
  | "log_buffer" => { w with logText := text }
  | _ => w

/-- Selects an index in a widget; the widget's handler is not called. -/
def setIndex (w : Window) (widget : String) (i : Int) : Window :=
  match widget with
  | "log_level" => { w with levelIndex := i }
  | "inputs_tabs" => { w with tab := i }
  | _ => w

/-- Moves the slider; its handler is not called. -/
def setSlider (w : Window) (i : Int) : Window := { w with slider := { w.slider with value := i } }

end Window

end TapeMachine
