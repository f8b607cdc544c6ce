import TapeMachine.Machine.Exec
import TapeMachine.Rounding

/-!
# The operations of the modes

What `?` does in each mode, and what the tasks do with the buffer.  `Task.perform` and
`Mode.perform` collect them.  An operation looks at the current cell, the buffer and the lines in a
fixed order, which shows when it ends in a fault half way.
-/

namespace TapeMachine

namespace Operation

open Exec

/-! ### Characters and numbers -/

/-- The character whose code is in a cell, or the half of a surrogate pair. -/
def characterOf : Cell → Except Fault Writing
  | .block _ => .error .blockForNumber
  | .int i =>
    if i < -0x80000000 ∨ 0x80000000 ≤ i then .error .oversizedCharacter
    else if i < 0 ∨ 0x110000 ≤ i then .error .noCharacter
    else if 0xD800 ≤ i ∧ i < 0xE000 then .ok (.surrogate i.toNat)
    else .ok (.text (String.singleton (Char.ofNat i.toNat)))

/-- The code of the only character of a text. -/
def codeOf (s : String) : Except Fault Nat :=
  match s.toList with
  | [c] => .ok c.toNat
  | cs => .error (.notOneCharacter cs.length)

/-- The number that a text of digits stands for. -/
def numeralOf (s : String) : Except Fault Int :=
  match Numeral.read s.toList with
  | .ok i => .ok i
  | .error .shape => .error (.badNumeral s)
  | .error (.long n) => .error (.longNumeral n)

/-- The number of a text: of a text of digits its value, of another character its code. -/
def numberOf (s : String) : Except Fault Int :=
  if Text.isDigits s.toList then numeralOf s else (codeOf s).map Int.ofNat

/-- A number as a byte. -/
def toByte (i : Int) : Cell := .int (i % 256)

/-! ### Reading and writing -/

/-- Writes the current cell on the console as it is shown. -/
def writeDecimal : Exec Unit := do
  let c ← cell
  if ← hasWriter .console then
    note (.writing c.text)
    write .console (.text c.text)

/-- Writes the character whose code is in the current cell. -/
def writeCharacter (ch : Channel) : Exec Unit := do
  let c ← cell
  if ← hasWriter ch then
    let x ← lift (characterOf c)
    note (.writing x.shown)
    write ch x

/-- Reads a number from the console. -/
def readNumber : Exec Unit := do
  match ← ask .console with
  | none => pure ()
  | some text =>
    note (.reading text)
    match text with
    | none => throw .nothingForNumber
    | some s => store (toByte (← lift (numberOf s)))

/-- Reads a character from the console. -/
def readCharacter : Exec Unit := do
  match ← ask .console with
  | none => pure ()
  | some text =>
    note (.reading text)
    match text with
    | none => throw .nothingForCharacter
    | some s => store (toByte (← lift (codeOf s)))

/-- Reads a character from the modem, which has to be a digit: of any other character the code is
taken first, and a code is no character. -/
def readDigitCharacter : Exec Unit := do
  match ← ask .modem with
  | none => pure ()
  | some text =>
    note (.reading text)
    match text with
    | none => throw .nothingForNumber
    | some s =>
      let code ← lift (codeOf s)
      if Text.isDigits s.toList then store (toByte code) else throw .numberForCharacter

/-! ### The buffer -/

/-- Queues the current cell. -/
def enqueue : Exec Unit := do
  let c ← cell
  note (.storing c)
  match c with
  | .block _ => throw .blockForNumber
  | .int i =>
    if 0 ≤ i ∧ i < 256 then setBuffer ((← buffer) ++ [UInt8.ofNat i.toNat]) else throw .notAByte

/-- Takes the newest byte into the current cell; a zero if there is none. -/
def dequeueLast : Exec Unit := do
  let bs ← buffer
  match bs.getLast? with
  | some b =>
    setBuffer bs.dropLast
    store (.int b.toNat)
    note (.dequeued b)
  | none =>
    note .nothingQueued
    store Cell.zero

/-- Takes the oldest byte; a zero if there is none. -/
def takeFirst : Exec UInt8 := do
  match ← buffer with
  | b :: bs =>
    setBuffer bs
    note (.dequeued b)
    return b
  | [] =>
    note .nothingQueued
    return 0

/-- Takes the oldest byte into the current cell. -/
def dequeueFirst : Exec Unit := do
  let b ← takeFirst
  store (.int b.toNat)

/-! ### Conversions -/

/-- Adds an offset to a number below a bound. -/
def shiftBelow (bound offset : Int) : Exec Unit := do
  match ← cell with
  | .block _ => throw .blockConversion
  | .int i => if i < bound then store (.int (i + offset))

/-- The codes of the operators, in the order of their numbers. -/
def operatorCodes : List Int := [43, 45, 60, 62, 91, 93, 61, 63]

/-- Replaces the number of an operator by its code; numbers count from either end. -/
def toOperator : Exec Unit := do
  match ← cell with
  | .block _ => throw .blockConversion
  | .int i =>
    if i < 8 then
      match Index.get operatorCodes i with
      | .ok code => store (.int code)
      | .error f => throw (.noOperatorNumber f)

/-! ### Arithmetic -/

/-- The bits of an integer and a natural number combined, negative numbers having ones without end
on their left. -/
def bitwise : Bitwise → Int → Nat → Int
  | .and, .ofNat n, k => ((n &&& k : Nat) : Int)
  | .and, .negSucc n, k => ((k - (n &&& k) : Nat) : Int)
  | .or, .ofNat n, k => ((n ||| k : Nat) : Int)
  | .or, .negSucc n, k => .negSucc (n - (n &&& k))
  | .xor, .ofNat n, k => ((n ^^^ k : Nat) : Int)
  | .xor, .negSucc n, k => .negSucc (n ^^^ k)

/-- The block of as many zero bytes as a number says. -/
def zeroBlock (n : Int) : Except Fault Cell :=
  if !Index.fits n then .error .oversizedLength
  else if n < 0 then .error .negativeLength
  else .ok (Cell.zeros n.toNat)

/-- Adds the oldest byte; the sum is at least the largest byte. -/
def add : Exec Unit := do
  let c ← cell
  let q ← takeFirst
  match c with
  | .block _ => throw .blockSum
  | .int i => store (.int (max (i + q.toNat) State.byteMax))

/-- Adds the oldest byte; the sum is at most zero. -/
def sub : Exec Unit := do
  let c ← cell
  let q ← takeFirst
  match c with
  | .block _ => throw .blockSum
  | .int i => store (.int (min (i + q.toNat) 0))

/-- Multiplies by the oldest byte; the product is at most the largest byte. -/
def mul : Exec Unit := do
  let c ← cell
  let q ← takeFirst
  match c with
  | .block _ => throw .blockProduct
  | .int i => store (.int (min (i * q.toNat) State.byteMax))

/-- Divides by the oldest byte unless that is zero; the quotient is at most one. -/
def div : Exec Unit := do
  let q ← takeFirst
  if q ≠ 0 then
    match ← cell with
    | .block _ => throw .blockQuotient
    | .int i =>
      match Rounding.divide? i q.toNat with
      | some r => store (.int (min r 1))
      | none => throw .oversizedQuotient

/-- Combines the bits with those of the oldest byte and leaves a block of that many zeros. -/
def combine (op : Bitwise) : Exec Unit := do
  let c ← cell
  let q ← takeFirst
  match c with
  | .block _ => throw (.blockBitwise op)
  | .int i => store (← lift (zeroBlock (bitwise op i q.toNat)))

/-- Replaces what counts as true by zero and all else by one. -/
def negate : Exec Unit := do
  let c ← cell
  store (.int (if c.isTrue then 0 else 1))

/-! ### Positions -/

/-- The length of a jump: that of the program, or the current cell if it is larger. -/
def jumpLength : Exec Int := do
  match ← cell with
  | .block _ => throw .blockJump
  | .int i => return max ((← machine).size : Int) i

/-- Sets where the step jumps to. -/
def jumpTo (p : Int) : Exec Unit := update fun s => { s with target := some p }

/-! ### Tasks -/

/-- The buffer as ASCII text. -/
def asciiText (bs : List UInt8) : Except Fault String :=
  match bs.findIdx? fun b => decide (128 ≤ b.toNat) with
  | some k => .error (.notAscii (bs.getD k 0) k)
  | none => .ok (String.ofList (bs.map Text.byteChar))

/-- Takes the whole buffer as text. -/
def takeText : Exec String := do
  let s ← lift (asciiText (← buffer))
  setBuffer []
  return s

/-- Takes a byte off the front of the buffer. -/
def takeByte : Exec UInt8 := do
  match ← buffer with
  | b :: bs =>
    setBuffer bs
    return b
  | [] => throw .shortBuffer

/-- A byte as a decimal numeral. -/
def byteText (b : UInt8) : String := String.ofList (Numeral.ofNat 10 b.toNat)

end Operation

open Exec Operation

/-- Executes a task on the buffer. -/
def Task.perform (t : Task) : Exec Unit := do
  match t with
  | .interpreter | .toneGenerator | .editor | .commandLine | .dialer =>
    note (.announced t [← takeText])
  | .config => throw (.missingTask .config)
  | .blinken =>
    let _ ← takeText
    throw .lampSettings
  | .scroller =>
    let pingPong ← takeByte
    let steps ← takeByte
    let blanks ← takeByte
    let text ← lift (asciiText (← buffer))
    note (.announced t [byteText pingPong, byteText steps, byteText blanks, text])
    setBuffer []
  | .autoDialTone =>
    let text ← takeText
    match text.toList with
    | [] => throw .emptyText
    | number :: _ => note (.announced t [String.singleton number, text])

/-- Executes the task that the current cell selects. -/
def Operation.executeTask : Exec Frame := do
  let c ← cell
  match Task.ofCell? c with
  | none =>
    let fault := Fault.unknownTask c (← state).position
    note (.warned fault)
    throw fault
  | some t =>
    note (.executing t)
    t.perform
    frame

/-- Performs the operation of a mode; two of them leave a frame themselves. -/
def Mode.perform (m : Mode) : Exec (Option Frame) := do
  match m with
  | .consoleDecimalWrite => writeDecimal; return none
  | .consoleDecimalRead => readNumber; return none
  | .consoleAsciiWrite => writeCharacter .console; return none
  | .consoleAsciiRead => readCharacter; return none
  | .modemAsciiWrite => writeCharacter .modem; return none
  | .modemAsciiRead => readDigitCharacter; return none
  | .bufferProgram =>
    setBuffer (← machine).programBytes
    return some (← frame)
  | .executeTask => return some (← Operation.executeTask)
  | .enqueue => Operation.enqueue; return none
  | .dequeueLast => Operation.dequeueLast; return none
  | .dequeueFirst => Operation.dequeueFirst; return none
  | .clearBuffer => setBuffer []; return none
  | .toLowerCase => shiftBelow 26 97; return none
  | .toUpperCase => shiftBelow 26 65; return none
  | .toDecimal => shiftBelow 10 48; return none
  | .toOperator => Operation.toOperator; return none
  | .add => Operation.add; return none
  | .sub => Operation.sub; return none
  | .mul => Operation.mul; return none
  | .div => Operation.div; return none
  | .and => combine .and; return none
  | .or => combine .or; return none
  | .not => negate; return none
  | .xor => combine .xor; return none
  | .getPointer => store (.int (← state).pointer); return none
  | .getPosition => store (.int ((← state).position + 1)); return none
  | .jumpLeft => jumpTo ((← state).position - (← jumpLength)); return none
  | .jumpRight => jumpTo ((← state).position + (← jumpLength)); return none

end TapeMachine
