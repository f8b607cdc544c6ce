import TapeMachine.Cell

/-!
# Operators, modes and tasks

A program is a text of eight operators.  The operator `?` performs the operation that the machine's
mode selects, one of twenty-eight, and the mode `Mode.executeTask` hands the buffer to one of the
badge's tasks.  Each operator, mode and task has the name under which it shows in the log.
-/

namespace TapeMachine

/-- The operators of a program. -/
inductive Operator where
  | advance
  | retreat
  | increment
  | decrement
  | beginLoop
  | endLoop
  | setMode
  | operate
deriving DecidableEq, Repr

namespace Operator

/-- All operators. -/
def all : List Operator :=
  [.advance, .retreat, .increment, .decrement, .beginLoop, .endLoop, .setMode, .operate]

/-- The character that stands for the operator. -/
def symbol : Operator → Char
  | .advance => '>'
  | .retreat => '<'
  | .increment => '+'
  | .decrement => '-'
  | .beginLoop => '['
  | .endLoop => ']'
  | .setMode => '='
  | .operate => '?'

/-- The operator that a character stands for. -/
def ofSymbol? : Char → Option Operator
  | '>' => some .advance
  | '<' => some .retreat
  | '+' => some .increment
  | '-' => some .decrement
  | '[' => some .beginLoop
  | ']' => some .endLoop
  | '=' => some .setMode
  | '?' => some .operate
  | _ => none

@[simp] theorem ofSymbol?_symbol (o : Operator) : ofSymbol? o.symbol = some o := by
  cases o <;> rfl

/-- The operator that a text of one character stands for. -/
def ofText? (s : String) : Option Operator :=
  match s.toList with
  | [c] => ofSymbol? c
  | _ => none

/-- The operator's name in the log. -/
def name : Operator → String
  | .advance => "_advance_mptr"
  | .retreat => "_retreat_mptr"
  | .increment => "_increment_mcell"
  | .decrement => "_decrement_mcell"
  | .beginLoop => "_begin_loop"
  | .endLoop => "_end_loop"
  | .setMode => "_set_iomode"
  | .operate => "_run_operation"

end Operator

/-- The operations that `?` can perform. -/
inductive Mode where
  | consoleDecimalWrite
  | consoleDecimalRead
  | consoleAsciiWrite
  | consoleAsciiRead
  | modemAsciiWrite
  | modemAsciiRead
  | bufferProgram
  | executeTask
  | enqueue
  | dequeueLast
  | dequeueFirst
  | clearBuffer
  | toLowerCase
  | toUpperCase
  | toDecimal
  | toOperator
  | add
  | sub
  | mul
  | div
  | and
  | or
  | not
  | xor
  | getPointer
  | getPosition
  | jumpLeft
  | jumpRight
deriving DecidableEq, Repr

namespace Mode

/-- The modes in the order of their codes, from zero. -/
def all : List Mode :=
  [.consoleDecimalWrite, .consoleDecimalRead, .consoleAsciiWrite, .consoleAsciiRead,
   .modemAsciiWrite, .modemAsciiRead, .bufferProgram, .executeTask, .enqueue, .dequeueLast,
   .dequeueFirst, .clearBuffer, .toLowerCase, .toUpperCase, .toDecimal, .toOperator, .add, .sub,
   .mul, .div, .and, .or, .not, .xor, .getPointer, .getPosition, .jumpLeft, .jumpRight]

/-- The code that selects the mode. -/
def code (m : Mode) : Nat := all.idxOf m

/-- The mode that a cell selects: only a number in the range of the codes selects one. -/
def ofCell? : Cell → Option Mode
  | .int (.ofNat n) => all[n]?
  | _ => none

@[simp] theorem ofCell?_code (m : Mode) : ofCell? (.int m.code) = some m := by
  cases m <;> rfl

/-- The mode's name in the log. -/
def name : Mode → String
  | .consoleDecimalWrite => "_console_decimal_write"
  | .consoleDecimalRead => "_console_decimal_read"
  | .consoleAsciiWrite => "_console_ascii_write"
  | .consoleAsciiRead => "_console_ascii_read"
  | .modemAsciiWrite => "_modem_ascii_write"
  | .modemAsciiRead => "_modem_ascii_read"
  | .bufferProgram => "_buffer_program"
  | .executeTask => "_execute_task"
  | .enqueue => "_buffer_enqueue"
  | .dequeueLast => "_buffer_dequeue_filo"
  | .dequeueFirst => "_buffer_dequeue_fifo"
  | .clearBuffer => "_buffer_clear"
  | .toLowerCase => "_convert_lower_case"
  | .toUpperCase => "_convert_upper_case"
  | .toDecimal => "_convert_decimal"
  | .toOperator => "_convert_tbas"
  | .add => "_alu_add"
  | .sub => "_alu_sub"
  | .mul => "_alu_mul"
  | .div => "_alu_div"
  | .and => "_alu_and"
  | .or => "_alu_or"
  | .not => "_alu_not"
  | .xor => "_alu_xor"
  | .getPointer => "_get_mptr"
  | .getPosition => "_get_eptr"
  | .jumpLeft => "_jump_left"
  | .jumpRight => "_jump_right"

end Mode

/-- The tasks of the badge. -/
inductive Task where
  | interpreter
  | config
  | toneGenerator
  | blinken
  | scroller
  | editor
  | commandLine
  | autoDialTone
  | dialer
deriving DecidableEq, Repr

namespace Task

/-- The tasks in the order of their codes, which leave out seven. -/
def all : List Task :=
  [.interpreter, .config, .toneGenerator, .blinken, .scroller, .editor, .commandLine,
   .autoDialTone, .dialer]

/-- The code that selects the task. -/
def code : Task → Nat
  | .interpreter => 0
  | .config => 1
  | .toneGenerator => 2
  | .blinken => 3
  | .scroller => 4
  | .editor => 5
  | .commandLine => 6
  | .autoDialTone => 8
  | .dialer => 9

/-- The task that a cell selects. -/
def ofCell? : Cell → Option Task
  | .int n => all.find? fun t => n == t.code
  | .block _ => none

/-- The task's name in the log. -/
def name : Task → String
  | .interpreter => "_exec_tbas"
  | .config => "_exec_config"
  | .toneGenerator => "_exec_tonegn"
  | .blinken => "_exec_blinken"
  | .scroller => "_exec_scroller"
  | .editor => "_exec_tbased"
  | .commandLine => "_exec_tbascl"
  | .autoDialTone => "_exec_autodt"
  | .dialer => "_exec_dialer"

/-- The word that announces the task's work. -/
def label : Task → String
  | .interpreter => "tbas"
  | .config => "config"
  | .toneGenerator => "tonegn"
  | .blinken => "blinken"
  | .scroller => "scroller"
  | .editor => "tbased"
  | .commandLine => "tbasctl"
  | .autoDialTone => "autodt"
  | .dialer => "dialer"

end Task

end TapeMachine
