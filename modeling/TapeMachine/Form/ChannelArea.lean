import TapeMachine.Form.Widget

/-!
# The channels' part of the form

Two tabs, one for the console and one for the modem.  Each has the transcript of its channel over a
row with the input field, the busy sign, the preview of the input, and the buttons.
-/

namespace TapeMachine

namespace Form

/-- What one channel's tab has of its own. -/
structure ChannelTab where
  /-- The word that the names of its widgets start with. -/
  word : String
  /-- The names of the tab's layout and of the layout of its row. -/
  column : String
  row : String
  /-- Settings of the page, the input field and the preview, before the common ones. -/
  page : List Setting
  input : List Setting
  preview : List Setting

namespace ChannelTab

/-- The name of one of the tab's widgets. -/
def widget (t : ChannelTab) (part : String) : String := t.word ++ "_" ++ part

/-- The widgets of a channel's tab. -/
def widgets (t : ChannelTab) : List Widget :=
  let tab := t.widget "tab"
  let buttons := t.widget "buttons"
  [Form.page tab t.page,
   layout .column tab t.column 0 6 0 0 [.holds (t.widget "output"), .holds buttons],
   ⟨t.widget "output", .browser, some tab, [.font monospaced, .named]⟩,
   panel tab buttons,
   layout .row buttons t.row 0 0 0 0
     [.holds (t.widget "input"), .holds (t.widget "blocked"), .holds (t.widget "input_value"),
      .space, .holds (t.widget "enter_button"), .holds (t.widget "reset_button"),
      .holds (t.widget "enable")],
   ⟨t.widget "input", .field, some buttons,
     t.input ++ [.maximumSize 120 16777215, .font monospaced, .named]⟩,
   ⟨t.widget "blocked", .scene, some buttons, [.minimumSize 16 0, .named]⟩,
   ⟨t.widget "input_value", .label, some buttons,
     t.preview ++ [.font monospaced, .named, .text "None"]⟩,
   pushButton buttons (t.widget "enter_button") "Enter",
   pushButton buttons (t.widget "reset_button") "Reset",
   ⟨t.widget "enable", .checkBox, some buttons, [.font proportional, .named, .text "On"]⟩]

end ChannelTab

/-- The console's tab. -/
def consoleTab : ChannelTab where
  word := "console"
  column := "verticalLayout_4"
  row := "horizontalLayout_4"
  page := [.policy .preferred .preferred]
  input := [.enabled true]
  preview := [.policy .fixed .preferred, .minimumSize 36 0]

/-- The modem's tab. -/
def modemTab : ChannelTab where
  word := "modem"
  column := "verticalLayout_9"
  row := "horizontalLayout_5"
  page := []
  input := []
  preview := []

/-- The widgets of the channels' part. -/
def channelArea : List Widget :=
  [panel "splitter_1" "inputs_widget",
   layout .column "inputs_widget" "verticalLayout" 0 6 0 0 [.holds "inputs_tabs"],
   ⟨"inputs_tabs", .tabs, some "inputs_widget",
     [.minimumSize 0 0, .font monospaced, .named, .tab "console_tab", .tab "modem_tab",
      .tabTitle "console_tab" "Console", .tabTitle "modem_tab" "Modem", .current 0]⟩] ++
  consoleTab.widgets ++ modemTab.widgets

end Form

end TapeMachine
