import TapeMachine.Chunk
import TapeMachine.Format.Layout

/-!
# Memory dumps

A dump shows memory sixteen cells to the line, each line with the decimal address of its first
cell in front and the cells in two halves of eight.  The last line is filled up with blanks.
-/

namespace TapeMachine

namespace Dump

/-- The number of cells on a line. -/
def rowSize : Nat := 16

/-- The number of cells in each half of a line. -/
def halfSize : Nat := 8

/-- The address in front of a line. -/
def address (n : Nat) : List Char :=
  let ds := Numeral.ofNat 10 n
  ['0', 'x'] ++ List.replicate (3 - ds.length) '0' ++ ds ++ [':', ' ']

/-- Texts with a separator between neighbours. -/
def join (sep : List Char) : List (List Char) → List Char
  | [] => []
  | [t] => t
  | t :: ts => t ++ sep ++ join sep ts

/-- The cells of half a line. -/
def half (spec : String) (cells : List (Option Cell)) : Except Format.Fault (List Char) := do
  return join [' '] (← cells.mapM (Format.slot spec))

/-- One line, given the number of its first cell. -/
def line (spec : String) (start : Nat) (cells : List (Option Cell)) :
    Except Format.Fault (List Char) := do
  let halves ← (Chunk.blocks halfSize none cells).mapM (half spec)
  return address start ++ join [' ', ' ', ' '] halves ++ ['\n']

/-- The lines of a dump, numbered from line `r`. -/
def lines (spec : String) : Nat → List (List (Option Cell)) → Except Format.Fault (List Char)
  | _, [] => .ok []
  | r, row :: rows => do
    let first ← line spec (r * rowSize) row
    let rest ← lines spec (r + 1) rows
    return first ++ rest

/-- The dump of a memory in which cells may be missing. -/
def ofSlots (spec : String) (memory : List (Option Cell)) : Except Format.Fault String := do
  return String.ofList (← lines spec 0 (Chunk.blocks rowSize none memory))

/-- The dump of a memory. -/
def ofCells (spec : String) (memory : List Cell) : Except Format.Fault String :=
  ofSlots spec (memory.map some)

/-- The bytes of a buffer as cells. -/
def bufferCells (buffer : List UInt8) : List Cell := buffer.map fun b => .int b.toNat

/-- The dump of a memory when the specification may be missing, which only an empty memory
stands. -/
def ofCells? (spec : Option String) (memory : List Cell) : Except Format.Fault String :=
  match spec, memory with
  | some spec, memory => ofCells spec memory
  | none, [] => .ok ""
  | none, _ :: _ => .error .missingSpec

end Dump

end TapeMachine
