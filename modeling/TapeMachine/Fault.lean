import TapeMachine.Format.Spec
import TapeMachine.Index
import TapeMachine.Instruction

/-!
# Faults

A fault stops the operation at hand and, in a run, the run.  Each constructor of `Fault` is one
cause, and `Fault.message` gives its wording, which the log and the command line show.
-/

namespace TapeMachine

/-- The bitwise operations. -/
inductive Bitwise where
  | and
  | or
  | xor
deriving DecidableEq, Repr

/-- The operation's sign. -/
def Bitwise.symbol : Bitwise → String
  | .and => "&"
  | .or => "|"
  | .xor => "^"

/-- Why an operation cannot be carried out. -/
inductive Fault where
  /-- The text stands for no operator. -/
  | unknownOperator
  /-- The program has ended. -/
  | endOfProgram
  /-- No instruction stands at the position. -/
  | noInstruction (cause : IndexFault)
  /-- The pointer addresses no cell. -/
  | noCell (cause : IndexFault)
  /-- The pointer addresses no cell to store into. -/
  | noStore (cause : IndexFault)
  /-- No operator has the number. -/
  | noOperatorNumber (cause : IndexFault)
  /-- The stack has no such frame. -/
  | noFrame (cause : IndexFault)
  /-- A loop is closed that was not opened. -/
  | unmatchedClose (position : Int)
  /-- No mode has the code. -/
  | unknownMode (mode : Cell) (position : Int)
  /-- No task has the code. -/
  | unknownTask (task : Cell) (position : Int)
  /-- The badge lacks the task. -/
  | missingTask (task : Task)
  /-- The machine lacks the routine. -/
  | missingRoutine (name : String)
  /-- A line refused to be read. -/
  | lineFailure (reason : String)
  /-- A line had nothing where a number was read. -/
  | nothingForNumber
  /-- A line had nothing where a character was read. -/
  | nothingForCharacter
  /-- A line had a text of another length where a character was read. -/
  | notOneCharacter (length : Nat)
  /-- A number was taken for a character. -/
  | numberForCharacter
  /-- The text is no decimal numeral. -/
  | badNumeral (text : String)
  /-- The numeral is too long. -/
  | longNumeral (digits : Nat)
  /-- No character has the code. -/
  | noCharacter
  /-- The code of a character does not fit into a signed 32-bit word. -/
  | oversizedCharacter
  /-- Half of a surrogate pair was to be encoded. -/
  | unencodable (code : Nat)
  /-- A block was taken for a number. -/
  | blockForNumber
  /-- A number that is no byte was to be queued. -/
  | notAByte
  /-- A block of negative length was to be made. -/
  | negativeLength
  /-- A block was to be made whose length does not fit into a signed 64-bit word. -/
  | oversizedLength
  /-- A quotient too large to be rounded. -/
  | oversizedQuotient
  /-- A number was added to a block. -/
  | blockSum
  /-- A number was taken from a block. -/
  | blockDifference
  /-- A product with a block was compared. -/
  | blockProduct
  /-- A block was divided. -/
  | blockQuotient
  /-- A block was combined bit by bit. -/
  | blockBitwise (op : Bitwise)
  /-- A block was to be converted. -/
  | blockConversion
  /-- A block was to be jumped over. -/
  | blockJump
  /-- The buffer holds a byte outside ASCII. -/
  | notAscii (byte : UInt8) (position : Nat)
  /-- The buffer holds fewer bytes than a task takes. -/
  | shortBuffer
  /-- The buffer holds no text where a task takes some. -/
  | emptyText
  /-- The lamps take their settings from bytes, and there is only text. -/
  | lampSettings
  /-- A number or a block cannot be laid out. -/
  | format (cause : Format.Fault)
  /-- A read was answered before. -/
  | answeredRead
  /-- No run was completed whose machine could be looked at. -/
  | nothingToShow
  /-- The interpreter has no such option. -/
  | unknownOption (name : String)
deriving DecidableEq, Repr

namespace Fault

/-- The wording for an index past the end of a list. -/
def indexMessage (outside : String) : IndexFault → String
  | .outside => outside
  | .oversized => "cannot fit 'int' into an index-sized integer"

/-- The wording of a fault. -/
def message : Fault → String
  | .unknownOperator => ""
  | .endOfProgram => "coroutine raised StopIteration"
  | .noInstruction f => indexMessage "string index out of range" f
  | .noCell f => indexMessage "list index out of range" f
  | .noStore f => indexMessage "list assignment index out of range" f
  | .noOperatorNumber f => indexMessage "list index out of range" f
  | .noFrame f => indexMessage "list index out of range" f
  | .unmatchedClose p => "] without matching [ @" ++ String.ofList (Numeral.decimal p)
  | .unknownMode m p => "Unknown io mode " ++ m.text ++ " @" ++ String.ofList (Numeral.decimal p)
  | .unknownTask t p => "Unknown task " ++ t.text ++ " @" ++ String.ofList (Numeral.decimal p)
  | .missingTask t => "'Context' object has no attribute '" ++ t.name ++ "'"
  | .missingRoutine n => "'Context' object has no attribute '" ++ n ++ "'"
  | .lineFailure reason => reason
  | .nothingForNumber => "'NoneType' object has no attribute 'isdigit'"
  | .nothingForCharacter => "ord() expected string of length 1, but NoneType found"
  | .notOneCharacter n =>
    "ord() expected a character, but string of length " ++ String.ofList (Numeral.ofNat 10 n) ++
      " found"
  | .numberForCharacter => "ord() expected string of length 1, but int found"
  | .badNumeral s =>
    "invalid literal for int() with base 10: " ++ String.ofList (Text.quote s.toList)
  | .longNumeral n =>
    "Exceeds the limit (" ++ String.ofList (Numeral.ofNat 10 Numeral.maxDigits) ++
      " digits) for integer string conversion: value has " ++ String.ofList (Numeral.ofNat 10 n) ++
      " digits; use sys.set_int_max_str_digits() to increase the limit"
  | .noCharacter => "chr() arg not in range(0x110000)"
  | .oversizedCharacter => "Python int too large to convert to C int"
  | .unencodable n =>
    "'utf-8' codec can't encode character '" ++ String.ofList (Text.Quoted.escape n) ++
      "' in position 0: surrogates not allowed"
  | .blockForNumber => "'bytes' object cannot be interpreted as an integer"
  | .notAByte => "byte must be in range(0, 256)"
  | .negativeLength => "negative count"
  | .oversizedLength => "cannot fit 'int' into an index-sized integer"
  | .oversizedQuotient => "integer division result too large for a float"
  | .blockSum => "can't concat int to bytes"
  | .blockDifference => "unsupported operand type(s) for -=: 'bytes' and 'int'"
  | .blockProduct => "'<' not supported between instances of 'int' and 'bytes'"
  | .blockQuotient => "unsupported operand type(s) for /: 'bytes' and 'int'"
  | .blockBitwise op => "unsupported operand type(s) for " ++ op.symbol ++ ": 'bytes' and 'int'"
  | .blockConversion => "'<' not supported between instances of 'bytes' and 'int'"
  | .blockJump => "'>' not supported between instances of 'bytes' and 'int'"
  | .notAscii b p =>
    "'ascii' codec can't decode byte 0x" ++ String.ofList (Text.hex 2 b.toNat) ++
      " in position " ++ String.ofList (Numeral.ofNat 10 p) ++ ": ordinal not in range(128)"
  | .shortBuffer => "pop from empty bytearray"
  | .emptyText => "string index out of range"
  | .lampSettings => "'str' object has no attribute 'pop'"
  | .format f => f.message
  | .answeredRead => "invalid state"
  | .nothingToShow => "'TBASMainWindow' object has no attribute 'current_context'"
  | .unknownOption n => "Interpreter.__init__() got an unexpected keyword argument '" ++ n ++ "'"

end Fault

end TapeMachine
