import TapeMachine.Fault

/-!
# The log

What the machine does is noted step by step.  A `Note` is one thing noted; `Note.level` says how
weighty it is and `Note.message` words it.  A log shows the notes from a level on.
-/

namespace TapeMachine

/-- How weighty a note is. -/
inductive Level where
  | debug
  | info
  | warning
  | error
  | critical
deriving DecidableEq, Repr

namespace Level

/-- All levels, the lightest first. -/
def all : List Level := [.debug, .info, .warning, .error, .critical]

/-- The weight of a level. -/
def severity : Level → Int
  | .debug => 10
  | .info => 20
  | .warning => 30
  | .error => 40
  | .critical => 50

/-- The name of a level. -/
def name : Level → String
  | .debug => "DEBUG"
  | .info => "INFO"
  | .warning => "WARNING"
  | .error => "ERROR"
  | .critical => "CRITICAL"

/-- The level of a name. -/
def ofName? (s : String) : Option Level := all.find? fun l => l.name == s

end Level

/-- A thing that is noted while the machine works. -/
inductive Note where
  /-- A program was loaded. -/
  | loaded (program : String)
  /-- An instruction was fetched. -/
  | fetched (symbol : String)
  /-- An operator is about to be evaluated. -/
  | evaluating (operator : Operator) (cell : Cell) (buffered : Nat) (position : Int)
  /-- A loop was opened. -/
  | loopBegun (position : Int)
  /-- A warning about a fault that is to follow. -/
  | warned (fault : Fault)
  /-- A mode's operation is about to be performed. -/
  | operating (mode : Mode)
  /-- A text is about to be written. -/
  | writing (text : String)
  /-- A line was read; it may have had nothing. -/
  | reading (text : Option String)
  /-- A cell is about to be queued. -/
  | storing (cell : Cell)
  /-- A byte was taken from the buffer. -/
  | dequeued (byte : UInt8)
  /-- The buffer had no byte to take. -/
  | nothingQueued
  /-- A task is about to be executed. -/
  | executing (task : Task)
  /-- A task announces its work. -/
  | announced (task : Task) (arguments : List String)
  /-- An operator was evaluated; most operators leave a frame themselves. -/
  | evaluated (framed : Bool)
  /-- A run was stopped by a fault. -/
  | stopped (fault : Fault)
deriving DecidableEq, Repr

namespace Note

/-- How weighty the note is. -/
def level : Note → Level
  | .warned _ => .warning
  | .announced _ _ => .info
  | .stopped _ => .error
  | _ => .debug

/-- The note in words. -/
def message : Note → String
  | .loaded p => "Context.source=\"" ++ p ++ "\""
  | .fetched s => "EVAL: " ++ s
  | .evaluating o c n p =>
    "Context.eval \"" ++ String.singleton o.symbol ++ "\" mcell=" ++ c.text ++ " l_iob=" ++
      String.ofList (Numeral.ofNat 10 n) ++ " @" ++ String.ofList (Numeral.decimal p) ++ " -> " ++
      o.name
  | .loopBegun p => "Context._begin_loop @" ++ String.ofList (Numeral.decimal p)
  | .warned f => f.message
  | .operating m => "Context._run_operation \"" ++ m.name ++ "\""
  | .writing s => "WRITE \"" ++ s ++ "\""
  | .reading s => "READ \"" ++ s.getD "None" ++ "\""
  | .storing c => "STORE \"" ++ c.text ++ "\""
  | .dequeued b => "DEQUEUE \"" ++ String.ofList (Numeral.ofNat 10 b.toNat) ++ "\""
  | .nothingQueued => "NO DEQUEUE"
  | .executing t => "Context._execute_task \"" ++ t.name ++ "\""
  | .announced t args => String.intercalate " " (t.label :: args)
  | .evaluated framed => if framed then "Created <Frame>" else "Created None"
  | .stopped f => f.message

end Note

end TapeMachine
