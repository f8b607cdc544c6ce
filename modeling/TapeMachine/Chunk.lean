/-!
# Blocks of equal size

`Chunk.blocks n fill xs` cuts a sequence into blocks of `n` and fills the last one up.  `chunk` is
the same for a signed block size, where a size below one gives no block.

Main statements: every block has the size asked for (`Chunk.length_of_mem_blocks`) and there are as
many blocks as the sequence needs (`Chunk.length_blocks`).
-/

namespace TapeMachine

namespace Chunk

variable {α : Type _}

/-- Cuts a sequence into blocks of `n`, the last one filled up. -/
def blocks (n : Nat) (fill : α) (xs : List α) : List (List α) :=
  if n = 0 ∨ xs = [] then []
  else (xs.take n ++ List.replicate (n - xs.length) fill) :: blocks n fill (xs.drop n)
termination_by xs.length
decreasing_by
  rename_i h
  have : 0 < xs.length := List.length_pos_iff.2 fun e => h (.inr e)
  simp only [List.length_drop]
  omega

theorem blocks_nil (n : Nat) (fill : α) : blocks n fill [] = [] := by
  rw [blocks]; simp

theorem length_of_mem_blocks {n : Nat} {fill : α} {xs b : List α} (h : b ∈ blocks n fill xs) :
    b.length = n := by
  fun_induction blocks n fill xs with
  | case1 => cases h
  | case2 xs _ ih =>
    rcases List.mem_cons.1 h with rfl | h
    · simp only [List.length_append, List.length_take, List.length_replicate]; omega
    · exact ih h

theorem length_blocks {n : Nat} (hn : 0 < n) (fill : α) (xs : List α) :
    (blocks n fill xs).length = (xs.length + n - 1) / n := by
  fun_induction blocks n fill xs with
  | case1 xs h =>
    rcases h with h | rfl
    · omega
    · simp only [List.length_nil]
      rw [Nat.div_eq_of_lt (by omega)]
  | case2 xs h ih =>
    have hp : 0 < xs.length := List.length_pos_iff.2 fun e => h (.inr e)
    rw [List.length_cons, ih, List.length_drop]
    by_cases hle : xs.length ≤ n
    · rw [Nat.sub_eq_zero_of_le hle, Nat.div_eq_of_lt (by omega)]
      symm
      rw [Nat.zero_add]
      exact Nat.div_eq_of_lt_le (by omega) (by omega)
    · rw [← Nat.add_div_right _ hn]
      congr 1
      omega

/-! ### Requests for blocks -/

/-- The kinds of values that a request for blocks may hold. -/
inductive Kind where
  | nothing
  | flag
  | whole
  | fraction
  | text
  | list
  | record
deriving DecidableEq, Repr

/-- The name of a kind. -/
def Kind.name : Kind → String
  | .nothing => "NoneType"
  | .flag => "bool"
  | .whole => "int"
  | .fraction => "float"
  | .text => "str"
  | .list => "list"
  | .record => "dict"

/-- Why a request for blocks is refused. -/
inductive Refusal where
  /-- What is to be cut is no sequence. -/
  | noSequence (kind : Kind)
  /-- The size is no whole number. -/
  | noSize (kind : Kind)
deriving DecidableEq, Repr

/-- The wording of a refusal. -/
def Refusal.message : Refusal → String
  | .noSequence k => "'" ++ k.name ++ "' object is not iterable"
  | .noSize k => "can't multiply sequence by non-int of type '" ++ k.name ++ "'"

end Chunk

/-- The blocks of a sequence for a signed size. -/
def chunk {α : Type _} (n : Int) (xs : List α) (fill : α) : List (List α) :=
  Chunk.blocks n.toNat fill xs

end TapeMachine
