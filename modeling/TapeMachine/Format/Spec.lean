import TapeMachine.Text.Digit

/-!
# Format specifications

A format specification says how a number is laid out:
`[[fill]align][sign][z][#][0][width][grouping][.precision][type]`, every part optional.
`Format.Spec.parse` reads one, or tells the first thing wrong with it.  Width and precision may be
written with the decimal digits of any script.
-/

namespace TapeMachine

namespace Format

/-- Where the padding of a number goes. -/
inductive Align where
  /-- After the number. -/
  | left
  /-- Before the number. -/
  | right
  /-- On both sides, the odd character after the number. -/
  | center
  /-- Between the sign and the digits. -/
  | afterSign
deriving DecidableEq, Repr

/-- Which signs are written. -/
inductive Sign where
  /-- A plus or a minus, always. -/
  | plus
  /-- A minus for negative numbers only. -/
  | minus
  /-- A space or a minus, always. -/
  | space
deriving DecidableEq, Repr

/-- The separator between groups of digits. -/
inductive Grouping where
  | comma
  | underscore
deriving DecidableEq, Repr

/-- The character that separates the groups. -/
def Grouping.separator : Grouping → Char
  | .comma => ','
  | .underscore => '_'

/-- Why a number or a block cannot be laid out. -/
inductive Fault where
  /-- A width or a precision that does not fit into a signed 64-bit word. -/
  | tooManyDigits
  /-- Both separators are asked for. -/
  | bothGroupings
  /-- A point without a precision after it. -/
  | missingPrecision
  /-- More than one character is left where the type stands. -/
  | leftover (spec : String)
  /-- A separator that does not go with the type. -/
  | groupingWithType (grouping : Grouping) (type : Char)
  /-- A type that numbers do not have. -/
  | unknownType (type : Char)
  /-- A precision, which whole numbers do not have. -/
  | precision
  /-- A rule for negative zero, which whole numbers do not have. -/
  | negativeZero
  /-- A sign for a character. -/
  | signWithCharacter
  /-- The alternate form of a character. -/
  | alternateWithCharacter
  /-- A number that is the code of no character. -/
  | noCharacter
  /-- A character code that does not fit into a signed 64-bit word. -/
  | oversizedCharacter
  /-- A layout other than the plain one, for a block of bytes. -/
  | blockWithSpec
  /-- No specification at all. -/
  | missingSpec
deriving DecidableEq, Repr

namespace Fault

/-- A type as it is named in messages: as it stands, or by its code outside visible ASCII. -/
def typeText (c : Char) : String :=
  if 32 < c.toNat ∧ c.toNat < 128 then String.singleton c
  else "\\x" ++ String.ofList (Nat.toDigits 16 c.toNat)

/-- The wording of a fault. -/
def message : Fault → String
  | .tooManyDigits => "Too many decimal digits in format string"
  | .bothGroupings => "Cannot specify both ',' and '_'."
  | .missingPrecision => "Format specifier missing precision"
  | .leftover spec => "Invalid format specifier '" ++ spec ++ "' for object of type 'int'"
  | .groupingWithType g c =>
    "Cannot specify '" ++ String.singleton g.separator ++ "' with '" ++ typeText c ++ "'."
  | .unknownType c => "Unknown format code '" ++ typeText c ++ "' for object of type 'int'"
  | .precision => "Precision not allowed in integer format specifier"
  | .negativeZero => "Negative zero coercion (z) not allowed in integer format specifier"
  | .signWithCharacter => "Sign not allowed with integer format specifier 'c'"
  | .alternateWithCharacter => "Alternate form (#) not allowed with integer format specifier 'c'"
  | .noCharacter => "%c arg not in range(0x110000)"
  | .oversizedCharacter => "Python int too large to convert to C long"
  | .blockWithSpec => "unsupported format string passed to bytes.__format__"
  | .missingSpec => "can only concatenate str (not \"builtin_function_or_method\") to str"

end Fault

/-- A format specification. -/
structure Spec where
  /-- The padding character. -/
  fill : Char := ' '
  /-- Where the padding goes. -/
  align : Align := .right
  /-- Which signs are written, if that is said. -/
  sign : Option Sign := none
  /-- Negative zero is to be written as zero. -/
  plainZero : Bool := false
  /-- The base is written in front of the digits. -/
  alternate : Bool := false
  /-- The least number of characters. -/
  width : Option Nat := none
  /-- The separator between groups of digits. -/
  grouping : Option Grouping := none
  /-- The number of places. -/
  precision : Option Nat := none
  /-- How the number is written. -/
  type : Char := 'd'
deriving DecidableEq, Repr

namespace Spec

/-! ### The parts of a specification

Each function takes one part from the front of a text and returns it with the rest. -/

/-- The alignment that a character stands for. -/
def align? : Char → Option Align
  | '<' => some .left
  | '>' => some .right
  | '^' => some .center
  | '=' => some .afterSign
  | _ => none

/-- The fill character and the alignment: an alignment in second place makes the first a fill. -/
def takeAlign (s : List Char) : Option Char × Option Align × List Char :=
  match s with
  | c :: a :: r =>
    match align? a, align? c with
    | some al, _ => (some c, some al, r)
    | none, some al => (none, some al, a :: r)
    | none, none => (none, none, s)
  | [c] =>
    match align? c with
    | some al => (none, some al, [])
    | none => (none, none, s)
  | [] => (none, none, [])

/-- The sign. -/
def takeSign : List Char → Option Sign × List Char
  | '+' :: r => (some .plus, r)
  | '-' :: r => (some .minus, r)
  | ' ' :: r => (some .space, r)
  | r => (none, r)

/-- A single character that may be there or not. -/
def takeFlag (c : Char) : List Char → Bool × List Char
  | d :: r => if d = c then (true, r) else (false, d :: r)
  | [] => (false, [])

/-- The largest width or precision. -/
def maxNumber : Nat := 0x7fffffffffffffff

/-- The digits at the front, added to the number read so far. -/
def takeDigits (n : Nat) : List Char → Except Fault (Nat × List Char)
  | [] => .ok (n, [])
  | c :: r =>
    match Text.decimalValue? c with
    | some d => if maxNumber < 10 * n + d then .error .tooManyDigits else takeDigits (10 * n + d) r
    | none => .ok (n, c :: r)

/-- A number, if a digit stands at the front. -/
def takeNumber (s : List Char) : Except Fault (Option Nat × List Char) := do
  let (n, r) ← takeDigits 0 s
  return (if r.length = s.length then none else some n, r)

/-- The separator; asking for both is refused. -/
def takeGrouping : List Char → Except Fault (Option Grouping × List Char)
  | ',' :: '_' :: _ => .error .bothGroupings
  | ',' :: r => .ok (some .comma, r)
  | '_' :: ',' :: _ => .error .bothGroupings
  | '_' :: r => .ok (some .underscore, r)
  | r => .ok (none, r)

/-- The precision, after its point. -/
def takePrecision : List Char → Except Fault (Option Nat × List Char)
  | '.' :: r => do
    match ← takeNumber r with
    | (some n, r') => return (some n, r')
    | (none, _) => throw .missingPrecision
  | r => .ok (none, r)

/-- The types that go with a comma. -/
def groupsByComma (type : Char) : Bool := "defgEFG%".toList.contains type

/-- The types whose digits are grouped by fours, by underscores only. -/
def groupsByFour (type : Char) : Bool := "boxX".toList.contains type

/-- The separator goes with the type. -/
def groupingFits (g : Grouping) (type : Char) : Bool :=
  groupsByComma type || (g == .underscore && groupsByFour type)

/-- Reads a specification that is not empty. -/
def parse (s : List Char) : Except Fault Spec := do
  let (fill, align, r) := takeAlign s
  let (sign, r) := takeSign r
  let (plainZero, r) := takeFlag 'z' r
  let (alternate, r) := takeFlag '#' r
  let (zeroFill, r) := if fill.isSome then (false, r) else takeFlag '0' r
  let (width, r) ← takeNumber r
  let (grouping, r) ← takeGrouping r
  let (precision, r) ← takePrecision r
  let type ← match r with
    | [] => pure 'd'
    | [c] => pure c
    | _ => throw (.leftover (String.ofList s))
  match grouping with
  | some g => if !groupingFits g type then throw (.groupingWithType g type)
  | none => pure ()
  return {
    fill := fill.getD (if zeroFill then '0' else ' ')
    align := align.getD (if zeroFill then .afterSign else .right)
    sign, plainZero, alternate, width, grouping, precision, type }

end Spec

end Format

end TapeMachine
