import TapeMachine.Text.Printable

/-!
# Blank characters

Two classes of blanks are in use: `Text.isBlank`, the white space that is trimmed from a program
before it is run, and `Text.isNumeralBlank`, the white space that may stand around a numeral,
which leaves out the four ASCII information separators.
-/

namespace TapeMachine

namespace Text

/-- The white space outside ASCII. -/
def wideBlanks : List (Nat × Nat) :=
  [(0x85, 0x85), (0xA0, 0xA0), (0x1680, 0x1680), (0x2000, 0x200A), (0x2028, 0x2029),
   (0x202F, 0x202F), (0x205F, 0x205F), (0x3000, 0x3000)]

/-- White space that may stand around a numeral. -/
def isNumeralBlank (c : Char) : Bool :=
  inRanges ((0x9, 0xD) :: (0x20, 0x20) :: wideBlanks) c.toNat

/-- White space, the information separators included. -/
def isBlank (c : Char) : Bool := isNumeralBlank c || inRanges [(0x1C, 0x1F)] c.toNat

/-- Drops the characters of a class from both ends of a text. -/
def trim (p : Char → Bool) (s : List Char) : List Char :=
  ((s.dropWhile p).reverse.dropWhile p).reverse

end Text

end TapeMachine
