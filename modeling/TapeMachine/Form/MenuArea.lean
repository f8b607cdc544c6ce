import TapeMachine.Form.Widget

/-!
# The menus of the form

A bar with two menus, and their actions.
-/

namespace TapeMachine

namespace Form

/-- A menu's actions by name and text, in groups that separators divide. -/
abbrev MenuGroups := List (List (String × String))

/-- The actions of the file menu. -/
def fileActions : MenuGroups :=
  [[("actionNew", "New"), ("actionOpen", "Open"), ("actionRecent", "Recent")],
   [("actionSave", "Save"), ("actionSave_As", "Save As...")],
   [("actionClose", "Close")]]

/-- The actions of the edit menu. -/
def editActions : MenuGroups :=
  [[("actionUndo", "Undo"), ("actionRedo", "Redo")],
   [("actionCut", "Cut"), ("actionCopy", "Copy"), ("actionPaste", "Paste")],
   [("actionSelect_All", "Select All")]]

/-- A menu with its groups of actions. -/
def menu (name title : String) (groups : MenuGroups) : Widget :=
  let items := (groups.map fun g => g.map fun (a, _) => Setting.action a).intersperse [.separator]
  ⟨name, .menu, some "menubar", [.named] ++ items.flatten ++ [.opener, .title title]⟩

/-- The actions of a menu. -/
def actions (groups : MenuGroups) : List Widget :=
  groups.flatten.map fun (name, text) =>
    ⟨name, .action, some "MainWindow", [.named, .text text]⟩

/-- The widgets of the menus, and the status bar, which is made between them. -/
def menuArea : List Widget :=
  [⟨"menubar", .menuBar, some "MainWindow",
     [.geometry 0 0 1100 22, .named, .menu "menuFile", .menu "menuEdit"]⟩,
   menu "menuFile" "File" fileActions,
   menu "menuEdit" "Edit" editActions,
   ⟨"statusbar", .statusBar, some "MainWindow", [.named]⟩] ++
  actions fileActions ++ actions editActions

end Form

end TapeMachine
