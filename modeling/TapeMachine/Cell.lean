import TapeMachine.Numeral
import TapeMachine.Text.Quoted

/-!
# Cells

A memory cell holds an integer, of any sign and size, or a block of bytes.  The bitwise
operations leave blocks behind, and most operations refuse them.
-/

namespace TapeMachine

/-- The content of a memory cell. -/
inductive Cell where
  /-- A number. -/
  | int (n : Int)
  /-- A block of bytes. -/
  | block (bytes : List UInt8)
deriving DecidableEq, Repr

namespace Cell

/-- What a cleared cell holds. -/
def zero : Cell := .int 0

instance : Inhabited Cell := ⟨zero⟩

/-- The block of `n` zero bytes. -/
def zeros (n : Nat) : Cell := .block (List.replicate n 0)

/-- The cell counts as true: a number other than zero, or a block that is not empty. -/
def isTrue : Cell → Bool
  | .int n => n != 0
  | .block bs => !bs.isEmpty

/-- The cell as it is shown: a decimal numeral, or a quoted byte string. -/
def text : Cell → String
  | .int n => String.ofList (Numeral.decimal n)
  | .block bs => String.ofList (Text.quoteBytes bs)

end Cell

end TapeMachine
