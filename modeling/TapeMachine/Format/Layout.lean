import TapeMachine.Format.Spec
import TapeMachine.Cell

/-!
# Laying out numbers

`Format.int` writes an integer as a specification says: sign, base mark, digits in groups, and
padding up to the width.  Padding with zeros between sign and digits takes part in the grouping,
so the separators run on through it.  `Format.cell` does the same for a cell, and refuses blocks
unless the specification is empty.
-/

namespace TapeMachine

namespace Format

/-! ### Digits -/

/-- How the digits of a type are written. -/
inductive Radix where
  | binary
  | octal
  | decimal
  | hex
  | upperHex
deriving DecidableEq, Repr

namespace Radix

/-- The base. -/
def base : Radix → Nat
  | .binary => 2
  | .octal => 8
  | .decimal => 10
  | .hex | .upperHex => 16

/-- The mark of the base in the alternate form. -/
def mark : Radix → List Char
  | .binary => ['0', 'b']
  | .octal => ['0', 'o']
  | .decimal => []
  | .hex => ['0', 'x']
  | .upperHex => ['0', 'X']

/-- The digits of a natural number. -/
def digits (x : Radix) (n : Nat) : List Char :=
  let ds := Numeral.ofNat x.base n
  if x = .upperHex then ds.map Char.toUpper else ds

/-- The number of digits in a group. -/
def groupSize (x : Radix) : Nat := if x = .decimal then 3 else 4

end Radix

/-- Groups digits from the right and puts zeros in front of them up to a width, separators
counted.  Digits and result run from right to left. -/
def groupReversed (size : Nat) (sep : Char) (ds : List Char) (width : Nat) : List Char :=
  let len := max 1 (min size (max ds.length width))
  let block := ds.take len ++ List.replicate (len - ds.length) '0'
  if ds.drop len = [] ∧ width - len = 0 then block
  else block ++ sep :: groupReversed size sep (ds.drop len) (width - len - 1)
termination_by ds.length + width
decreasing_by
  rename_i h
  simp only [List.drop_eq_nil_iff, List.length_drop] at h ⊢
  omega

/-- The digits in groups, if a separator is given, with zeros in front up to a width. -/
def groupDigits (size : Nat) (sep : Option Char) (ds : List Char) (width : Nat) : List Char :=
  match sep with
  | some s => (groupReversed size s ds.reverse width).reverse
  | none => List.replicate (width - ds.length) '0' ++ ds

/-! ### Numbers -/

/-- The sign that is written in front of a number. -/
def signText (sign : Option Sign) (negative : Bool) : List Char :=
  if negative then ['-']
  else match sign with
    | some .plus => ['+']
    | some .space => [' ']
    | _ => []

/-- The width that zeros between sign and digits have to fill, what stands beside them apart. -/
def zeroWidth (s : Spec) (beside : Nat) : Nat :=
  if s.fill = '0' ∧ s.align = .afterSign then s.width.getD 0 - beside else 0

/-- Pads a number, given as what stands before the inner padding and what stands after it. -/
def pad (s : Spec) (front back : List Char) : List Char :=
  let n := s.width.getD 0 - (front.length + back.length)
  match s.align with
  | .left => front ++ back ++ List.replicate n s.fill
  | .right => List.replicate n s.fill ++ front ++ back
  | .center => List.replicate (n / 2) s.fill ++ front ++ back ++ List.replicate (n - n / 2) s.fill
  | .afterSign => front ++ List.replicate n s.fill ++ back

/-- An integer in digits. -/
def number (s : Spec) (x : Radix) (i : Int) : List Char :=
  let front := signText s.sign (decide (i < 0)) ++ if s.alternate then x.mark else []
  let digits := groupDigits x.groupSize (s.grouping.map Grouping.separator) (x.digits i.natAbs)
    (zeroWidth s front.length)
  pad s front digits

/-- An integer as the character of its code. -/
def character (s : Spec) (i : Int) : Except Fault (List Char) :=
  if s.sign.isSome then .error .signWithCharacter
  else if s.alternate then .error .alternateWithCharacter
  else if i < -0x8000000000000000 ∨ 0x8000000000000000 ≤ i then .error .oversizedCharacter
  else if i < 0 ∨ 0x110000 ≤ i then .error .noCharacter
  else .ok (pad s [] [Char.ofNat i.toNat])

/-- What the type of a specification asks for: `none` is the character, `some` the digits. -/
def radix? (type : Char) : Except Fault (Option Radix) :=
  match type with
  | 'b' => .ok (some .binary)
  | 'c' => .ok none
  | 'd' | 'n' => .ok (some .decimal)
  | 'o' => .ok (some .octal)
  | 'x' => .ok (some .hex)
  | 'X' => .ok (some .upperHex)
  | c => .error (.unknownType c)

/-- An integer as a specification says; the empty specification gives its decimal numeral. -/
def int (spec : String) (i : Int) : Except Fault (List Char) :=
  if spec.isEmpty then .ok (Numeral.decimal i) else do
    let s ← Spec.parse spec.toList
    let x ← radix? s.type
    if s.precision.isSome then throw .precision
    if s.plainZero then throw .negativeZero
    match x with
    | some x => return number s x i
    | none => character s i

/-- A cell as a specification says. -/
def cell (spec : String) : Cell → Except Fault (List Char)
  | .int i => int spec i
  | .block bs => if spec.isEmpty then .ok (Text.quoteBytes bs) else .error .blockWithSpec

/-- A cell that may be missing; a missing one leaves as much blank as a zero takes. -/
def slot (spec : String) : Option Cell → Except Fault (List Char)
  | some c => cell spec c
  | none => do
    let zero ← int spec 0
    return List.replicate zero.length ' '

end Format

end TapeMachine
