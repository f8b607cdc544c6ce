import TapeMachine.Proofs.DumpReading
import Mathlib.Data.Rat.Floor

/-!
# Blocks by dealing

Blocks of `n` can be had by dealing a sequence out to `n` hands that all draw from it, round by
round.  A hand that finds the sequence at its end takes the filling then and in all later rounds,
and when the last hand that still drew finds it so, the dealing is over at once and the round does
not count (`Chunk.deal`, `Chunk.Deals`).  This ends, and what it gives are the blocks of
`Chunk.blocks` (`Chunk.deals_iff`):

* a full round takes `n` values off the front and leaves all hands drawing (`deal_of_le`);
* a round in which the sequence ends is filled up, and the next one does not count (`deal_of_lt`,
  `deal_nil`);
* a sequence that ends with a round leaves nothing to the next, which does not count either.

`Chunk.partitions` is about the blocks themselves: how many there are, how long they are and what
they are put together, and that the rows of a dump always fall into two halves.
-/

namespace TapeMachine

namespace Chunk

variable {α : Type*}

/-! ### Dealing -/

/-- A hand to which a sequence is dealt. -/
inductive Hand where
  /-- It draws from the sequence. -/
  | drawing
  /-- It takes the filling. -/
  | filling

/-- What a round leaves: a value for each hand, the hands and how many of them draw, and the rest of
the sequence. -/
structure Round (α : Type*) where
  row : List α
  hands : List Hand
  active : Nat
  rest : List α

/-- The round with one more hand in front. -/
def Round.push (x : α) (h : Hand) (r : Round α) : Round α :=
  { r with row := x :: r.row, hands := h :: r.hands }

/-- One round over the hands, of which `active` draw.  It does not count if the last of these finds
the sequence at its end. -/
def deal (fill : α) : Nat → List Hand → List α → Option (Round α)
  | active, [], xs => some ⟨[], [], active, xs⟩
  | active, .filling :: hs, xs => (deal fill active hs xs).map (.push fill .filling)
  | active, .drawing :: hs, x :: xs => (deal fill active hs xs).map (.push x .drawing)
  | active, .drawing :: hs, [] =>
    if active - 1 = 0 then none else (deal fill (active - 1) hs []).map (.push fill .filling)

/-- The rounds that count are these, one after the other. -/
inductive Deals (fill : α) : Nat → List Hand → List α → List (List α) → Prop
  | stop {active : Nat} {hs : List Hand} {xs : List α}
      (h : active = 0 ∨ deal fill active hs xs = none) : Deals fill active hs xs []
  | round {active : Nat} {hs : List Hand} {xs : List α} {r : Round α} {rows : List (List α)}
      (ha : active ≠ 0) (h : deal fill active hs xs = some r)
      (hr : Deals fill r.active r.hands r.rest rows) : Deals fill active hs xs (r.row :: rows)

variable {fill : α} {n : Nat} {xs : List α}

theorem Deals.unique {active : Nat} {hs : List Hand} {rows rows' : List (List α)}
    (h : Deals fill active hs xs rows) (h' : Deals fill active hs xs rows') : rows = rows' := by
  induction h generalizing rows' with
  | stop hstop =>
    cases h' with
    | stop _ => rfl
    | round ha hdeal _ =>
      rcases hstop with hzero | hnone
      · exact absurd hzero ha
      · cases hnone.symm.trans hdeal
  | round ha hdeal _ ih =>
    cases h' with
    | stop hstop =>
      rcases hstop with hzero | hnone
      · exact absurd hzero ha
      · cases hnone.symm.trans hdeal
    | round _ hdeal' hr' =>
      cases hdeal.symm.trans hdeal'
      rw [ih hr']

/-- A full round. -/
theorem deal_of_le (active : Nat) (h : n ≤ xs.length) :
    deal fill active (List.replicate n .drawing) xs =
      some ⟨xs.take n, List.replicate n .drawing, active, xs.drop n⟩ := by
  induction n generalizing xs with
  | zero => rfl
  | succ n ih =>
    cases xs with
    | nil => cases h
    | cons x xs =>
      rw [List.replicate_succ, deal, ih (Nat.le_of_succ_le_succ h)]
      rfl

/-- Hands that find the sequence at its end, while others draw. -/
theorem deal_filling (active n : Nat) (h : 0 < active) :
    deal fill (active + n) (List.replicate n .drawing) [] =
      some ⟨List.replicate n fill, List.replicate n .filling, active, []⟩ := by
  induction n with
  | zero => rfl
  | succ n ih =>
    rw [List.replicate_succ, deal, ← Nat.add_assoc, Nat.add_sub_cancel, if_neg (by omega), ih]
    rfl

/-- A round in which the sequence ends. -/
theorem deal_of_lt {active k : Nat} (h : 0 < active) :
    deal fill (active + k) (List.replicate (xs.length + k) .drawing) xs =
      some ⟨xs ++ List.replicate k fill,
        List.replicate xs.length .drawing ++ List.replicate k .filling, active, []⟩ := by
  induction xs with
  | nil =>
    rw [List.length_nil, Nat.zero_add]
    exact deal_filling active k h
  | cons x xs ih =>
    rw [List.length_cons, Nat.add_right_comm, List.replicate_succ, deal, ih]
    rfl

/-- A round that finds the sequence at its end from the beginning does not count. -/
theorem deal_nil (n : Nat) (hs : List Hand) :
    deal fill (n + 1) (List.replicate (n + 1) .drawing ++ hs) [] = none := by
  induction n with
  | zero => rfl
  | succ n ih =>
    rw [List.replicate_succ, List.cons_append, deal, Nat.add_sub_cancel, if_neg (by omega), ih]
    rfl

theorem deals_nil {active : Nat} (hs : List Hand) :
    Deals fill active (List.replicate active .drawing ++ hs) [] [] := by
  cases active with
  | zero => exact .stop (.inl rfl)
  | succ n => exact .stop (.inr (deal_nil n hs))

/-- Dealing gives the blocks. -/
theorem deals_blocks (n : Nat) (fill : α) (xs : List α) :
    Deals fill n (List.replicate n .drawing) xs (blocks n fill xs) := by
  fun_induction blocks n fill xs with
  | case1 xs h =>
    rcases h with rfl | rfl
    · exact .stop (.inl rfl)
    · have hnil : Deals fill n (List.replicate n .drawing ++ []) [] [] := deals_nil []
      rwa [List.append_nil] at hnil
  | case2 xs h ih =>
    obtain ⟨hn, hne⟩ := not_or.1 h
    by_cases hle : n ≤ xs.length
    · rw [Nat.sub_eq_zero_of_le hle, List.replicate_zero, List.append_nil]
      exact .round hn (deal_of_le n hle) ih
    · -- The sequence ends in this round, after at least one value was drawn.
      obtain ⟨k, rfl⟩ : ∃ k, n = xs.length + k := Nat.exists_eq_add_of_le (by omega)
      have hpos : 0 < xs.length := List.length_pos_iff.2 hne
      rw [List.take_of_length_le (by omega), List.drop_eq_nil_of_le (by omega), blocks_nil,
        Nat.add_sub_cancel_left]
      exact .round hn (deal_of_lt hpos) (deals_nil _)

/-- **What dealing gives** are the blocks, and nothing else. -/
theorem deals_iff {rows : List (List α)} :
    Deals fill n (List.replicate n .drawing) xs rows ↔ rows = blocks n fill xs := by
  constructor
  · intro h
    exact h.unique (deals_blocks n fill xs)
  · rintro rfl
    exact deals_blocks n fill xs

/-! ### How many blocks, and what they are put together -/

theorem length_flatten_blocks (n : Nat) (fill : α) (xs : List α) :
    (blocks n fill xs).flatten.length = (blocks n fill xs).length * n := by
  have hlengths : (blocks n fill xs).map List.length =
      List.replicate (blocks n fill xs).length n := by
    refine List.eq_replicate_iff.2 ⟨List.length_map _, fun k hk => ?_⟩
    obtain ⟨b, hb, rfl⟩ := List.mem_map.1 hk
    exact length_of_mem_blocks hb
  rw [List.length_flatten, hlengths, List.sum_replicate_nat]

/-- The number of blocks and the number of fillings are quotient and remainder of one division. -/
theorem div_mod_blocks (hn : 0 < n) (fill : α) (xs : List α) :
    -(xs.length : Int) / n = -(blocks n fill xs).length ∧
      -(xs.length : Int) % n = (blocks n fill xs).length * n - xs.length := by
  have hlow : (blocks n fill xs).length * n ≤ xs.length + n - 1 := by
    rw [length_blocks hn]
    exact Nat.div_mul_le_self _ n
  have hhigh : xs.length ≤ (blocks n fill xs).length * n := by
    rw [length_blocks hn]
    have hlt := Nat.lt_div_mul_add (a := xs.length + n - 1) hn
    omega
  refine (Int.ediv_emod_unique (by omega)).2 ⟨?_, ?_, ?_⟩
  · rw [mul_neg, mul_comm (n : Int)]
    omega
  · zify at hhigh
    omega
  · zify at hlow
    omega

theorem length_blocks_eq_ceil (hn : 0 < n) (fill : α) (xs : List α) :
    ((blocks n fill xs).length : Int) = ⌈(xs.length : ℚ) / n⌉ := by
  rw [Rat.ceil_natCast_div_natCast, (div_mod_blocks hn fill xs).1, neg_neg]

/-- Put together again, the blocks are the sequence and as many fillings as the last one needs. -/
theorem flatten_blocks (hn : 0 < n) (fill : α) (xs : List α) :
    (blocks n fill xs).flatten =
      xs ++ List.replicate (-(xs.length : Int) % n).toNat fill := by
  obtain ⟨k, hk⟩ := exists_flatten_blocks hn fill xs
  have hlength : xs.length + k = (blocks n fill xs).length * n := by
    rw [← length_flatten_blocks, hk, List.length_append, List.length_replicate]
  have hfillings : (-(xs.length : Int) % n).toNat = k := by
    rw [(div_mod_blocks hn fill xs).2]
    zify at hlength
    omega
  rw [hk, hfillings]

/-- A sequence of twice the size falls into two blocks. -/
theorem exists_blocks_eq_pair (hn : 0 < n) (fill : α) (h : xs.length = n + n) :
    ∃ l r, blocks n fill xs = [l, r] ∧ l ++ r = xs := by
  have hcount : (blocks n fill xs).length = 2 := by
    rw [length_blocks hn, h]
    exact Nat.div_eq_of_lt_le (by omega) (by omega)
  obtain ⟨l, r, hlr⟩ := List.length_eq_two.1 hcount
  have hflatten := flatten_blocks hn fill xs
  rw [hlr, h] at hflatten
  refine ⟨l, r, hlr, ?_⟩
  have hnone : (-((n + n : Nat) : Int) % n).toNat = 0 := by
    rw [Nat.cast_add, ← two_mul, ← neg_mul, Int.mul_emod_left]
    rfl
  simpa [hnone] using hflatten

end Chunk

/-- A line of a dump from its halves. -/
def Dump.lineOfHalves (spec : String) (start : Nat) (l r : List (Option Cell)) :
    Except Format.Fault (List Char) := do
  let left ← half spec l
  let right ← half spec r
  return address start ++ (left ++ [' ', ' ', ' '] ++ right) ++ ['\n']

theorem Dump.line_of_halves {row l r : List (Option Cell)}
    (h : Chunk.blocks halfSize none row = [l, r]) (spec : String) (start : Nat) :
    line spec start row = lineOfHalves spec start l r := by
  rw [line, h, lineOfHalves, List.mapM_cons, List.mapM_cons, List.mapM_nil]
  cases half spec l with
  | error f => rfl
  | ok left => cases half spec r <;> rfl

namespace Chunk

/-- **Blocks partition a sequence, with a filling at its end.**  For every size, sequence and
filling:

* for a size of at least one, there are as many blocks as the length divided by the size, rounded
  up; each has the size; and put together they are the sequence and behind it the fillings that are
  missing to a multiple of the size;
* for a size below one, there is no block;
* they are what dealing the sequence out to so many hands gives.

So each row of a dump, of however many cells the memory has, falls into exactly two halves, and its
line is made of these. -/
theorem partitions (n : Int) (xs : List α) (fill : α) :
    (1 ≤ n →
      ((chunk n xs fill).length : Int) = ⌈(xs.length : ℚ) / n⌉ ∧
      (∀ b ∈ chunk n xs fill, (b.length : Int) = n) ∧
      (chunk n xs fill).flatten = xs ++ List.replicate (-(xs.length : Int) % n).toNat fill) ∧
    (n ≤ 0 → chunk n xs fill = []) ∧
    (∀ rows, Deals fill n.toNat (List.replicate n.toNat .drawing) xs rows ↔
      rows = chunk n xs fill) ∧
    ∀ memory : List (Option Cell), ∀ row ∈ chunk Dump.rowSize memory none,
      ∃ l r, chunk Dump.halfSize row none = [l, r] ∧ l ++ r = row ∧
        ∀ spec start, Dump.line spec start row = Dump.lineOfHalves spec start l r := by
  refine ⟨fun hn => ?_, fun hn => ?_, fun rows => deals_iff, fun memory row hrow => ?_⟩
  · obtain ⟨k, rfl⟩ : ∃ k : Nat, n = k := Int.eq_ofNat_of_zero_le (by omega)
    have hk : 0 < k := by omega
    refine ⟨?_, fun b hb => ?_, flatten_blocks hk fill xs⟩
    · rw [Int.cast_natCast]
      exact length_blocks_eq_ceil hk fill xs
    · exact congrArg Nat.cast (length_of_mem_blocks hb)
  · rw [chunk, Int.toNat_of_nonpos hn, blocks, if_pos (.inl rfl)]
  · have hlength : row.length = Dump.halfSize + Dump.halfSize := length_of_mem_blocks hrow
    obtain ⟨l, r, hlr, happend⟩ := exists_blocks_eq_pair (by decide) none hlength
    exact ⟨l, r, hlr, happend, Dump.line_of_halves hlr⟩

end Chunk

end TapeMachine
