import TapeMachine.Form.ChannelArea
import TapeMachine.Form.MemoryArea
import TapeMachine.Form.MenuArea
import TapeMachine.Form.ProgramArea

/-!
# The form of the window

The program and its state stand above, the channels and the memories below, with splitters between.
`Form.widgets` lists all widgets in the order in which they are made, the window itself last, since
it is there before the others are.
-/

namespace TapeMachine

namespace Form

/-- The widgets that hold the two halves. -/
def frame : List Widget :=
  [panel "MainWindow" "centralwidget",
   ⟨"verticalLayout_5", .column, some "centralwidget", [.named, .holds "splitter_0"]⟩,
   ⟨"splitter_0", .splitter, some "centralwidget", [.orientation .vertical, .named]⟩]

/-- The widgets that hold the two parts of the lower half. -/
def lowerFrame : List Widget :=
  [panel "splitter_0" "bottom_widget",
   layout .column "bottom_widget" "verticalLayout_3" 0 6 0 0 [.holds "splitter_1"],
   ⟨"splitter_1", .splitter, some "bottom_widget", [.orientation .horizontal, .named]⟩]

/-- The window. -/
def window : Widget :=
  ⟨"MainWindow", .window, none,
    [.named, .enabled true, .size 1100 600, .minimumSize 1100 600, .centralWidget "centralwidget",
     .menuBar "menubar", .statusBar "statusbar", .windowTitle "MainWindow", .connected]⟩

/-- All widgets of the form. -/
def widgets : List Widget :=
  frame ++ programArea ++ lowerFrame ++ channelArea ++ memoryArea ++ menuArea ++ [window]

/-- The names of all widgets. -/
def names : List String := widgets.map Widget.name

/-- The widget of a name. -/
def find? (name : String) : Option Widget := widgets.find? fun w => w.name == name

/-- The text that building the form leaves in a widget. -/
def text (name : String) : String := ((find? name).map Widget.text).getD ""

/-- The index that building the form leaves selected in a widget. -/
def current (name : String) : Nat := ((find? name).map Widget.current).getD 0

/-- The texts of the second column of the table of the state. -/
def statusTexts : List String := statusTable.rows.map fun row => row.getD 1 ""

end Form

end TapeMachine
