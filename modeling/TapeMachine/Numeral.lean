import TapeMachine.Text.Blank
import TapeMachine.Text.Digit

/-!
# Numerals

Writing: `Numeral.digits` gives the digits of a number in a base, most significant first, and
`Numeral.decimal` the decimal numeral of an integer, with a minus sign in front of a negative one.

Reading: `Numeral.read` takes an optional sign and decimal digits of any script, with single
underscores between digits and blanks around the whole.  A numeral of more than `maxDigits`
digits is refused, and that is noticed before anything that follows its digits.
-/

namespace TapeMachine

namespace Numeral

/-! ### Writing -/

/-- The digits of `n` in base `b`, most significant first; a base below two has one digit only. -/
def digits (b n : Nat) : List Nat :=
  if b < 2 ∨ n < b then [n] else digits b (n / b) ++ [n % b]
termination_by n
decreasing_by exact Nat.div_lt_self (by omega) (by omega)

/-- The numeral of a natural number in base `b`, with the letters from `a` on after the nine. -/
def ofNat (b n : Nat) : List Char := (digits b n).map Nat.digitChar

/-- The decimal numeral of an integer. -/
def decimal (i : Int) : List Char :=
  if i < 0 then '-' :: ofNat 10 i.natAbs else ofNat 10 i.natAbs

/-- The number that digits in base `b` stand for, most significant first. -/
def value (b : Nat) (ds : List Nat) : Nat := ds.foldl (fun v d => b * v + d) 0

theorem value_append (b : Nat) (ds : List Nat) (d : Nat) :
    value b (ds ++ [d]) = b * value b ds + d := by
  simp [value]

/-- The digits of a number stand for it. -/
theorem value_digits (b n : Nat) : value b (digits b n) = n := by
  fun_induction digits b n with
  | case1 n _ => simp [value]
  | case2 n _ ih => rw [value_append, ih, Nat.div_add_mod]

theorem digits_ne_nil (b n : Nat) : digits b n ≠ [] := by
  rw [digits]
  split <;> simp

/-! ### Reading -/

/-- Why a text is not taken as a numeral. -/
inductive Malformed where
  /-- It is not written as a numeral. -/
  | shape
  /-- It has more digits than are taken. -/
  | long (digits : Nat)
deriving DecidableEq, Repr

/-- The number of digits that a numeral may have. -/
def maxDigits : Nat := 4300

/-- Underscores stand singly and between digits; `afterDigit` tells whether a digit came before. -/
def wellSpaced (afterDigit : Bool) : List Char → Bool
  | [] => afterDigit
  | c :: r => if c = '_' then afterDigit && wellSpaced false r else wellSpaced true r

/-- The sign of a numeral, as "is negative", and what follows it. -/
def splitSign : List Char → Bool × List Char
  | '-' :: r => (true, r)
  | '+' :: r => (false, r)
  | r => (false, r)

/-- The integer that a numeral stands for. -/
def read (s : List Char) : Except Malformed Int :=
  let (negative, body) := splitSign (Text.trim Text.isNumeralBlank s)
  let run := body.takeWhile fun c => Text.isDecimal c || c == '_'
  let ds := run.filterMap Text.decimalValue?
  if !wellSpaced false run then .error .shape
  else if maxDigits < ds.length then .error (.long ds.length)
  else if run.length ≠ body.length then .error .shape
  else if negative then .ok (-(value 10 ds : Int)) else .ok (value 10 ds : Int)

end Numeral

end TapeMachine
