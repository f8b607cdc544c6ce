import TapeMachine.Form.Setting

/-!
# Widgets

A widget has a name, a kind, the widget it belongs to, and its settings.  The functions at the end
make the widgets that a form has many of.
-/

namespace TapeMachine

namespace Form

/-- The kinds of widgets. -/
inductive Kind where
  | panel
  | column
  | row
  | grid
  | splitter
  | editor
  | browser
  | field
  | label
  | toolButton
  | pushButton
  | checkBox
  | choice
  | spinBox
  | slider
  | line
  | tabs
  | tableView
  | scene
  | menuBar
  | menu
  | action
  | statusBar
  | window
deriving DecidableEq, Repr

/-- The toolkit's class for a kind. -/
def Kind.className : Kind → String
  | panel => "QWidget"
  | column => "QVBoxLayout"
  | row => "QHBoxLayout"
  | grid => "QGridLayout"
  | splitter => "QSplitter"
  | editor => "QPlainTextEdit"
  | browser => "QTextBrowser"
  | field => "QLineEdit"
  | label => "QLabel"
  | toolButton => "QToolButton"
  | pushButton => "QPushButton"
  | checkBox => "QCheckBox"
  | choice => "QComboBox"
  | spinBox => "QSpinBox"
  | slider => "QSlider"
  | line => "QFrame"
  | tabs => "QTabWidget"
  | tableView => "QTableWidget"
  | scene => "QQuickWidget"
  | menuBar => "QMenuBar"
  | menu => "QMenu"
  | action => "QAction"
  | statusBar => "QStatusBar"
  | window => "QMainWindow"

/-- A widget of a form. -/
structure Widget where
  name : String
  kind : Kind
  /-- The widget it belongs to, if it has one from the start. -/
  parent : Option String
  settings : List Setting
deriving Repr

namespace Widget

/-- What the widget is made from: the widget it belongs to. -/
def arguments (w : Widget) : List Argument := (w.parent.map Argument.widget).toList

/-- The steps that build the widget. -/
def steps (w : Widget) : List Step := w.settings.flatMap (Setting.steps w.name)

/-- The text that building leaves in the widget. -/
def text (w : Widget) : String :=
  w.settings.foldl (fun t s => match s with | .text new => new | _ => t) ""

/-- The index that building leaves selected in the widget. -/
def current (w : Widget) : Nat :=
  w.settings.foldl (fun i s => match s with | .current new => new | _ => i) 0

end Widget

/-! ### Widgets a form has many of -/

/-- The font of texts whose columns have to line up. -/
def monospaced : String := "Courier New"

/-- The font of captions. -/
def proportional : String := "Arial"

/-- A panel with nothing but its name. -/
def panel (parent name : String) : Widget := ⟨name, .panel, some parent, [.named]⟩

/-- A page of tabs; it gets its parent when it is put into them. -/
def page (name : String) (settings : List Setting) : Widget :=
  ⟨name, .panel, none, settings ++ [.named]⟩

/-- A layout of a panel with margins. -/
def layout (kind : Kind) (parent name : String) (left top right bottom : Nat)
    (contents : List Setting) : Widget :=
  ⟨name, kind, some parent, [.margins left top right bottom, .named] ++ contents⟩

/-- A tool button with further settings behind its name. -/
def toolButton (parent name : String) (settings : List Setting) : Widget :=
  ⟨name, .toolButton, some parent, [.font monospaced, .named] ++ settings⟩

/-- A push button. -/
def pushButton (parent name text : String) : Widget :=
  ⟨name, .pushButton, some parent, [.font proportional, .named, .text text]⟩

/-- A vertical line between two widgets. -/
def divider (parent name : String) : Widget := ⟨name, .line, some parent, [.sunkenLine, .named]⟩

/-- A choice's entries, and the texts they get. -/
def entries (texts : List String) : List Setting × List Setting :=
  (texts.map fun _ => .entry, texts.mapIdx .entryText)

end Form

end TapeMachine
