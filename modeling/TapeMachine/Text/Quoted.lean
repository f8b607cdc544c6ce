import TapeMachine.Text.Printable

/-!
# Quoted texts and byte strings

A quoted text stands between single quotes, or between double quotes when it holds a single quote
and no double one.  The quote in use and the backslash are escaped, and so is every character that
cannot be shown: the three common controls by a letter, any other by its code in two, four or
eight hexadecimal digits.  A byte string is quoted alike, after a `b`, and shows ASCII only.
-/

namespace TapeMachine

namespace Text

/-- The `width` lowest hexadecimal digits of a number. -/
def hex (width n : Nat) : List Char :=
  match width with
  | 0 => []
  | w + 1 => hex w (n / 16) ++ [Nat.digitChar (n % 16)]

@[simp] theorem length_hex (width n : Nat) : (hex width n).length = width := by
  induction width generalizing n with
  | zero => rfl
  | succ w ih => simp [hex, ih]

namespace Quoted

/-- The quote to stand around a text. -/
def mark (s : List Char) : Char :=
  if s.contains '\'' && !s.contains '"' then '"' else '\''

/-- The letter that names a common control character. -/
def controlLetter? (c : Char) : Option Char :=
  if c = '\t' then some 't' else if c = '\n' then some 'n' else if c = '\r' then some 'r' else none

/-- A code point by number, in the shortest of the three escapes that holds it. -/
def escape (n : Nat) : List Char :=
  if n < 0x100 then '\\' :: 'x' :: hex 2 n
  else if n < 0x10000 then '\\' :: 'u' :: hex 4 n
  else '\\' :: 'U' :: hex 8 n

/-- One character between quotes `q`; `shown` says which characters stand as they are. -/
def encodeChar (shown : Char → Bool) (q c : Char) : List Char :=
  if c = q || c = '\\' then ['\\', c]
  else match controlLetter? c with
    | some l => ['\\', l]
    | none => if shown c then [c] else escape c.toNat

/-- A text between quotes. -/
def encode (shown : Char → Bool) (s : List Char) : List Char :=
  let q := mark s
  q :: s.flatMap (encodeChar shown q) ++ [q]

end Quoted

/-- The text between quotes, with what cannot be shown escaped. -/
def quote (s : List Char) : List Char := Quoted.encode isPrintable s

/-- A byte as the character of its code. -/
def byteChar (b : UInt8) : Char := Char.ofNat b.toNat

/-- The printable part of ASCII. -/
def isPlain (c : Char) : Bool := decide (0x20 ≤ c.toNat ∧ c.toNat < 0x7F)

/-- A byte string between quotes, after its `b`. -/
def quoteBytes (bs : List UInt8) : List Char := 'b' :: Quoted.encode isPlain (bs.map byteChar)

end Text

end TapeMachine
