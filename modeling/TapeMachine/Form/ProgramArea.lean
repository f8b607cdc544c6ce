import TapeMachine.Form.Widget

/-!
# The upper half of the form

On the left the program text over a row of buttons and the frame slider, on the right the table
that shows the state of a frame.
-/

namespace TapeMachine

namespace Form

/-- A button of the program area, with its tip. -/
def programButton (name tip text : String) : Widget :=
  toolButton "button_widget" name [.toolTip tip, .text text]

/-- The buttons under the program text, with lines between their groups. -/
def programButtons : List Widget :=
  [programButton "run_step_button" "Run one step" ">",
   programButton "run_to_breakpoint_button" "Run to breakpoint" ">|",
   programButton "run_to_end_button" "Run to end" ">>",
   divider "button_widget" "line_0",
   programButton "reset_button" "Reset" "<0",
   programButton "reset_run_step_button" "Reset; Run one step" "0>",
   programButton "reset_run_to_breakpoint_button" "Reset; Run to breakpoint" "0>|",
   programButton "reset_run_to_end_button" "Reset; Run to end" "0>>",
   divider "button_widget" "line_1",
   programButton "remove_breakpoints_button" "Remove breakpoints" "x|",
   divider "button_widget" "line_2",
   ⟨"frame_slider", .slider, some "button_widget",
     [.orientation .horizontal, .named, .toolTip "Select frame"]⟩,
   programButton "frame_down_button" "Back one frame" "-",
   programButton "frame_up_button" "Ahead one frame" "+"]

/-- The table of the state of a frame, as it stands before a frame is looked at. -/
def statusTable : Table where
  headings := ["Name", "Value"]
  rowHeading := "New Row"
  rows :=
    [["frame", "0"], ["stack_depth", "0"], ["eptr", "NONE"], ["mptr", "0"], ["operator", "+"],
     ["icell_len", "0"], ["imode", "0"], ["in_dead_loop", "False"], ["loop_depth", "0"],
     ["loop_ptr", "None"], ["goto", "None"]]

/-- The widgets of the upper half. -/
def programArea : List Widget :=
  [panel "splitter_0" "top_widget",
   layout .row "top_widget" "horizontalLayout_6" 0 0 0 0
     [.holds "program_widget", .holds "table_widget"],
   panel "top_widget" "program_widget",
   layout .column "program_widget" "verticalLayout_6" 0 0 0 0
     [.holds "program_input", .holds "button_widget"],
   ⟨"program_input", .editor, some "program_widget",
     [.font monospaced, .autoFill false, .styleSheet "", .named]⟩,
   panel "program_widget" "button_widget",
   layout .row "button_widget" "horizontalLayout_2" 0 0 0 6
     (programButtons.map fun w => .holds w.name)] ++
  programButtons ++
  [⟨"table_widget", .panel, some "top_widget", [.policy .minimum .minimum, .named]⟩,
   layout .column "table_widget" "verticalLayout_8" 0 0 0 6 [.holds "status_table"],
   ⟨"status_table", .tableView, some "table_widget",
     [.policy .preferred .minimumExpanding, .font monospaced, .readOnlyGrid, .named,
      .table statusTable]⟩]

end Form

end TapeMachine
