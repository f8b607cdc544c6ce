import TapeMachine.Form.Call

/-!
# Settings of a widget

A setting is one decision about a widget: its font, its place, its text, what it holds.  Each
setting becomes one or more construction steps (`Setting.steps`), and a widget is built by its
settings in order.
-/

namespace TapeMachine

namespace Form

/-- How a widget takes part in the space of its layout, in one direction. -/
inductive Stretch where
  | fixed
  | minimum
  | minimumExpanding
  | preferred
  | expanding
deriving DecidableEq, Repr

/-- The toolkit's constant for a stretch. -/
def Stretch.constant : Stretch → Argument
  | .fixed => .constant "QSizePolicy.Fixed"
  | .minimum => .constant "QSizePolicy.Minimum"
  | .minimumExpanding => .constant "QSizePolicy.MinimumExpanding"
  | .preferred => .constant "QSizePolicy.Preferred"
  | .expanding => .constant "QSizePolicy.Expanding"

/-- The direction of a slider or a splitter. -/
inductive Orientation where
  | horizontal
  | vertical
deriving DecidableEq, Repr

/-- The toolkit's constant for an orientation. -/
def Orientation.constant : Orientation → Argument
  | .horizontal => .constant "Qt.Horizontal"
  | .vertical => .constant "Qt.Vertical"

/-- A table of texts under column headings. -/
structure Table where
  headings : List String
  /-- The heading that every row carries. -/
  rowHeading : String
  rows : List (List String)
deriving Repr

/-- A decision about a widget. -/
inductive Setting where
  /-- Gives the widget its own name. -/
  | named
  | font (family : String)
  | policy (horizontal vertical : Stretch)
  | minimumSize (width height : Nat)
  | maximumSize (width height : Nat)
  | geometry (x y width height : Nat)
  | size (width height : Nat)
  | margins (left top right bottom : Nat)
  | orientation (o : Orientation)
  | enabled (b : Bool)
  | autoFill (b : Bool)
  | styleSheet (s : String)
  | toolTip (s : String)
  | text (s : String)
  | title (s : String)
  | windowTitle (s : String)
  /-- A sunken vertical line. -/
  | sunkenLine
  /-- Long lines are not wrapped. -/
  | unwrapped
  /-- The widget is brought before its siblings. -/
  | raised
  /-- A layout holds a widget. -/
  | holds (widget : String)
  /-- A grid holds a widget in one of its cells. -/
  | holdsAt (widget : String) (row column : Nat)
  /-- Empty space that grows in width. -/
  | space
  /-- Tabs hold a page, with no title yet. -/
  | tab (page : String)
  | tabTitle (page title : String)
  /-- A choice gets one more entry, with no text yet. -/
  | entry
  | entryText (index : Nat) (s : String)
  | current (index : Nat)
  /-- A menu bar holds a menu. -/
  | menu (menu : String)
  /-- A menu holds an action. -/
  | action (action : String)
  | separator
  /-- A menu gives the action that opens it. -/
  | opener
  /-- A table shows its grid and is not edited. -/
  | readOnlyGrid
  | table (t : Table)
  | centralWidget (widget : String)
  | menuBar (widget : String)
  | statusBar (widget : String)
  /-- Signals are connected to the handlers that bear their names. -/
  | connected
deriving Repr

namespace Setting

/-- An item of a table that has no text yet. -/
def blankItem : Argument := .object "QTableWidgetItem" [] []

/-- A size. -/
def sizeOf (width height : Nat) : Argument := .object "QSize" [.number width, .number height] []

/-- The steps that make the items of a table: row headings, column headings, then row by row. -/
def itemSteps (t : Table) : List Step :=
  t.rows.mapIdx (fun r _ => .direct "setVerticalHeaderItem" [.number r, blankItem]) ++
  t.headings.mapIdx (fun c _ => .direct "setHorizontalHeaderItem" [.number c, blankItem]) ++
  (t.rows.mapIdx fun r row =>
    row.mapIdx fun c _ => .direct "setItem" [.number r, .number c, blankItem]).flatten

/-- The steps that show the column headings and hide the row headings. -/
def headerSteps : List Step :=
  Step.through (.mk "horizontalHeader" []) "setVisible" [.flag true] ++
  Step.through (.mk "horizontalHeader" []) "setSortIndicatorShown" [.flag false] ++
  Step.through (.mk "horizontalHeader" []) "setStretchLastSection" [.flag true] ++
  Step.through (.mk "verticalHeader" []) "setVisible" [.flag false] ++
  Step.through (.mk "verticalHeader" []) "setStretchLastSection" [.flag false]

/-- The steps that write the headings of a table. -/
def headingSteps (t : Table) : List Step :=
  (t.rows.mapIdx fun r _ =>
    Step.through (.mk "verticalHeaderItem" [.number r]) "setText" [.text t.rowHeading]).flatten ++
  (t.headings.mapIdx fun c heading =>
    Step.through (.mk "horizontalHeaderItem" [.number c]) "setText" [.text heading]).flatten

/-- The steps that write the texts of a table, while it is not sorted. -/
def textSteps (widget : String) (t : Table) : List Step :=
  [.direct "isSortingEnabled" [], .direct "setSortingEnabled" [.flag false]] ++
  (t.rows.mapIdx fun r row => (row.mapIdx fun c s =>
    Step.through (.mk "item" [.number r, .number c]) "setText" [.text s]).flatten).flatten ++
  [.direct "setSortingEnabled" [.result widget [.mk "isSortingEnabled" []]]]

/-- The steps that carry a setting out on the widget of a name. -/
def steps (widget : String) : Setting → List Step
  | named => [.direct "setObjectName" [.text widget]]
  | font family => [.direct "setFont" [.object "QFont" [] [.mk "setFamily" [.text family]]]]
  | policy horizontal vertical =>
    Step.through (.mk "sizePolicy" []) "hasHeightForWidth" [] ++
    [.direct "setSizePolicy" [.object "QSizePolicy" [horizontal.constant, vertical.constant]
      [.mk "setHorizontalStretch" [.number 0], .mk "setVerticalStretch" [.number 0],
       .mk "setHeightForWidth"
         [.result widget [.mk "sizePolicy" [], .mk "hasHeightForWidth" []]]]]]
  | minimumSize width height => [.direct "setMinimumSize" [sizeOf width height]]
  | maximumSize width height => [.direct "setMaximumSize" [sizeOf width height]]
  | geometry x y width height =>
    [.direct "setGeometry"
      [.object "QRect" [.number x, .number y, .number width, .number height] []]]
  | size width height => [.direct "resize" [.number width, .number height]]
  | margins left top right bottom =>
    [.direct "setContentsMargins" [.number left, .number top, .number right, .number bottom]]
  | orientation o => [.direct "setOrientation" [o.constant]]
  | enabled b => [.direct "setEnabled" [.flag b]]
  | autoFill b => [.direct "setAutoFillBackground" [.flag b]]
  | styleSheet s => [.direct "setStyleSheet" [.text s]]
  | toolTip s => [.direct "setToolTip" [.text s]]
  | text s => [.direct "setText" [.text s]]
  | title s => [.direct "setTitle" [.text s]]
  | windowTitle s => [.direct "setWindowTitle" [.text s]]
  | sunkenLine =>
    [.direct "setFrameShape" [.constant "QFrame.VLine"],
     .direct "setFrameShadow" [.constant "QFrame.Sunken"]]
  | unwrapped => [.direct "setLineWrapMode" [.constant "QTextEdit.NoWrap"]]
  | raised => [.direct "raise_" []]
  | holds child => [.direct "addWidget" [.widget child]]
  | holdsAt child row column =>
    [.direct "addWidget" [.widget child, .number row, .number column, .number 1, .number 1]]
  | space =>
    [.direct "addItem" [.object "QSpacerItem"
      [.number 40, .number 20, Stretch.expanding.constant, Stretch.minimum.constant] []]]
  | tab page => [.direct "addTab" [.widget page, .text ""]]
  | tabTitle page s =>
    [.direct "indexOf" [.widget page],
     .direct "setTabText" [.result widget [.mk "indexOf" [.widget page]], .text s]]
  | entry => [.direct "addItem" [.text ""]]
  | entryText index s => [.direct "setItemText" [.number index, .text s]]
  | current index => [.direct "setCurrentIndex" [.number index]]
  | menu m => [.direct "addAction" [.result m [.mk "menuAction" []]]]
  | action a => [.direct "addAction" [.widget a]]
  | separator => [.direct "addSeparator" []]
  | opener => [.direct "menuAction" []]
  | readOnlyGrid =>
    [.direct "setEditTriggers" [.constant "QAbstractItemView.NoEditTriggers"],
     .direct "setShowGrid" [.flag true],
     .direct "setGridStyle" [.constant "Qt.SolidLine"]]
  | table t =>
    [.direct "setColumnCount" [.number t.headings.length],
     .direct "setRowCount" [.number t.rows.length]] ++
    itemSteps t ++ headerSteps ++ headingSteps t ++ textSteps widget t
  | centralWidget w => [.direct "setCentralWidget" [.widget w]]
  | menuBar w => [.direct "setMenuBar" [.widget w]]
  | statusBar w => [.direct "setStatusBar" [.widget w]]
  | connected => [.direct "connectSlotsByName" []]

end Setting

end Form

end TapeMachine
