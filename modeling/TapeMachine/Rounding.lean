/-!
# Rounded quotients

Division first rounds the exact quotient to 53 significant bits, a tie to the even neighbour, and
then drops the fraction.  For quotients below `2 ^ 46` or so this is plain truncation; above that,
the rounding shows.
-/

namespace TapeMachine

namespace Rounding

/-- The quotient rounded to the nearest integer, a tie to the even one. -/
def nearest (a b : Nat) : Nat :=
  let q := a / b
  let r := a % b
  if b < 2 * r ∨ (2 * r = b ∧ q % 2 = 1) then q + 1 else q

/-- The number of significant bits. -/
def precision : Nat := 53

/-- The quotient rounded to 53 significant bits, without its fraction. -/
def quotient (a b : Nat) : Nat :=
  if a / b = 0 then 0
  else
    let n := Nat.log2 (a / b)
    if precision ≤ n + 1 then
      let unit := 1 <<< (n + 1 - precision)
      nearest a (b * unit) * unit
    else
      let scale := 1 <<< (precision - (n + 1))
      nearest (a * scale) b / scale

/-- The least quotient that is too large to be rounded. -/
def limit : Nat := 1 <<< 1024

/-- The signed quotient, rounded and cut; `none` when it is too large. -/
def divide? (a : Int) (b : Nat) : Option Int :=
  let q := quotient a.natAbs b
  if limit ≤ q then none else some (if a < 0 then -(q : Int) else q)

end Rounding

end TapeMachine
