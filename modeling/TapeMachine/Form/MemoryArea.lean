import TapeMachine.Form.Widget

/-!
# The memories' part of the form

Three tabs: the dump of the cells, the dump of the buffer, and the log.  The two dumps have the same
row of controls for a format, an address and a value.
-/

namespace TapeMachine

namespace Form

/-- What the controls of one memory have of their own. -/
structure MemoryControls where
  /-- The word that the names of the controls start with. -/
  word : String
  /-- The panel that the controls stand on. -/
  panel : String
  /-- The names of the layout of the panel, and of the line before the last button. -/
  row : String
  line : String
  /-- The tip of the choice of a format. -/
  tip : String

namespace MemoryControls

/-- The name of one of the controls. -/
def widget (m : MemoryControls) (part : String) : String := m.word ++ "_" ++ part

/-- The controls of a memory. -/
def widgets (m : MemoryControls) : List Widget :=
  let (slots, texts) := entries ["Ascii", "Hex", "Int"]
  [layout .row m.panel m.row 0 0 0 0
     [.holds (m.widget "select"), .space, .holds (m.widget "address"), .holds (m.widget "input"),
      .holds (m.widget "equal_button"), .holds (m.widget "zero_button"), .holds m.line,
      .holds (m.widget "zero_all_button")],
   ⟨m.widget "select", .choice, some m.panel,
     [.policy .expanding .fixed, .font proportional, .named] ++ slots ++ [.toolTip m.tip] ++
     texts ++ [.current 2]⟩,
   ⟨m.widget "address", .spinBox, some m.panel, [.named]⟩,
   ⟨m.widget "input", .field, some m.panel, [.named]⟩,
   toolButton m.panel (m.widget "equal_button") [.text "="],
   toolButton m.panel (m.widget "zero_button") [.text "0"],
   divider m.panel m.line,
   toolButton m.panel (m.widget "zero_all_button") [.text "00"]]

end MemoryControls

/-- The tab of the cells. -/
def cellsTab : List Widget :=
  [page "memory_tab" [],
   layout .grid "memory_tab" "gridLayout_2" 0 6 0 0
     [.holdsAt "memory_buffer" 0 0, .holdsAt "memory_buttons" 1 0],
   ⟨"memory_buffer", .browser, some "memory_tab", [.font monospaced, .unwrapped, .named]⟩,
   panel "memory_tab" "memory_buttons"] ++
  MemoryControls.widgets ⟨"memory", "memory_buttons", "horizontalLayout", "line", "Memory Format"⟩

/-- The tab of the buffer. -/
def bufferTab : List Widget :=
  [page "io_tab" [],
   layout .grid "io_tab" "gridLayout_3" 0 6 0 0
     [.holdsAt "io_buttons" 1 0, .holdsAt "io_buffer" 0 0],
   ⟨"io_buttons", .panel, some "io_tab", [.named, .raised]⟩] ++
  MemoryControls.widgets
    ⟨"buffer", "io_buttons", "horizontalLayout_3", "line_3", "IO Buffer Format"⟩ ++
  [⟨"io_buffer", .browser, some "io_tab", [.font monospaced, .unwrapped, .named, .raised]⟩]

/-- The tab of the log. -/
def logTab : List Widget :=
  let (slots, texts) := entries ["Debug", "Info", "Warning", "Error", "Critical"]
  [page "log_tab" [],
   layout .grid "log_tab" "gridLayout_4" 0 6 0 0
     [.holdsAt "log_buttons" 1 0, .holdsAt "log_buffer" 0 0],
   panel "log_tab" "log_buttons",
   layout .row "log_buttons" "horizontalLayout_7" 0 0 0 0
     [.holds "log_level", .space, .holds "log_reset_button"],
   ⟨"log_level", .choice, some "log_buttons", [.named] ++ slots ++ texts ++ [.current 2]⟩,
   toolButton "log_buttons" "log_reset_button" [.text "Reset"],
   ⟨"log_buffer", .browser, some "log_tab", [.font monospaced, .unwrapped, .named]⟩]

/-- The widgets of the memories' part. -/
def memoryArea : List Widget :=
  [⟨"outputs_widget", .panel, some "splitter_1", [.minimumSize 578 0, .named]⟩,
   layout .column "outputs_widget" "verticalLayout_2" 0 6 0 0 [.holds "outputs_tabs"],
   ⟨"outputs_tabs", .tabs, some "outputs_widget",
     [.font proportional, .named, .tab "memory_tab", .tab "io_tab", .tab "log_tab",
      .tabTitle "memory_tab" "Memory", .tabTitle "io_tab" "IO Buffer",
      .tabTitle "log_tab" "TBAS Log", .current 0]⟩] ++
  cellsTab ++ bufferTab ++ logTab

end Form

end TapeMachine
