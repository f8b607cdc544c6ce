import TapeMachine.Proofs.DumpReading
import Mathlib.Data.List.Infix
import Mathlib.Tactic.SplitIfs

/-!
# The columns of a dump

Sixteen cells to the line, in two halves of eight, each cell in three places, one blank between the
cells and three between the halves: for numbers of at most three digits every cell has its own place
on its own line.  `Dump.memory_columns` says where.  Only the address in front of a line can have more
than three digits, and then the whole line moves to the right.

* `Chunk.getElem?_of_blocks` says which cells a line shows;
* `Dump.prefix_drop_join` and `Dump.exists_of_getElem?_join` say what stands where in texts of equal
  length that are put together with a separator; the halves of a line and the cells of a half are
  such texts.
-/

namespace TapeMachine

/-- The entries of a block: those of the sequence from its place on, then the filling. -/
theorem Chunk.getElem?_of_blocks {α : Type} {n : Nat} {fill : α} {xs : List α} {r : Nat}
    {b : List α} (h : (blocks n fill xs)[r]? = some b) {j : Nat} (hj : j < n) :
    b[j]? = some (xs.getD (r * n + j) fill) := by
  fun_induction blocks n fill xs generalizing r with
  | case1 xs _ => cases h
  | case2 xs _ ih =>
    cases r with
    | zero =>
      cases h
      rw [Nat.zero_mul, Nat.zero_add, List.getD_eq_getElem?_getD]
      by_cases hlt : j < xs.length
      · rw [List.getElem?_append_left (by rw [List.length_take]; omega), List.getElem?_take_of_lt hj,
          List.getElem?_eq_getElem hlt]
        rfl
      · have hlen : (xs.take n).length = xs.length := by rw [List.length_take]; omega
        rw [List.getElem?_append_right (by omega), List.getElem?_eq_none (Nat.le_of_not_lt hlt),
          List.getElem?_replicate_of_lt (by omega)]
        rfl
    | succ r =>
      rw [ih h, List.getD_eq_getElem?_getD, List.getD_eq_getElem?_getD, List.getElem?_drop,
        Nat.succ_mul, Nat.add_comm (r * n) n, Nat.add_assoc]

namespace Dump

open Format

/-! ### Texts of equal length with separators -/

section Join

variable {k : Nat} (sep : List Char) {ts : List (List Char)} (h : ∀ t ∈ ts, t.length = k)
include h

theorem length_join (hne : ts ≠ []) :
    (join sep ts).length + sep.length = ts.length * (k + sep.length) := by
  fun_induction join sep ts with
  | case1 => exact absurd rfl hne
  | case2 t => rw [h t List.mem_cons_self, List.length_singleton, Nat.one_mul]
  | case3 t ts hts ih =>
    have htail := ih (fun u hu => h u (List.mem_cons_of_mem t hu)) fun hnil => hts hnil
    rw [List.length_append, List.length_append, h t List.mem_cons_self, List.length_cons,
      Nat.succ_mul]
    omega

/-- Each text begins where the texts and separators before it end. -/
theorem prefix_drop_join {j : Nat} {t : List Char} (hj : ts[j]? = some t) :
    t <+: (join sep ts).drop (j * (k + sep.length)) := by
  fun_induction join sep ts generalizing j with
  | case1 => cases hj
  | case2 u =>
    obtain ⟨hlt, rfl⟩ := List.getElem?_eq_some_iff.1 hj
    obtain rfl : j = 0 := Nat.lt_one_iff.1 hlt
    rw [Nat.zero_mul]
    exact List.prefix_rfl
  | case3 u ts hts ih =>
    cases j with
    | zero =>
      cases hj
      rw [Nat.zero_mul, List.append_assoc]
      exact List.prefix_append _ _
    | succ j =>
      have hskip : (j + 1) * (k + sep.length) = (u ++ sep).length + j * (k + sep.length) := by
        rw [List.length_append, h u List.mem_cons_self, Nat.succ_mul, Nat.add_comm]
      rw [hskip, List.drop_length_add_append]
      exact ih (fun x hx => h x (List.mem_cons_of_mem u hx)) hj

/-- Every character belongs to a text or to a separator. -/
theorem exists_of_getElem?_join {p : Nat} {c : Char} (hp : (join sep ts)[p]? = some c) :
    c ∈ sep ∨ ∃ j l t, p = j * (k + sep.length) + l ∧ l < k ∧ ts[j]? = some t ∧ t[l]? = some c := by
  fun_induction join sep ts generalizing p with
  | case1 => cases hp
  | case2 t =>
    have hlt := (List.getElem?_eq_some_iff.1 hp).1
    rw [h t List.mem_cons_self] at hlt
    exact .inr ⟨0, p, t, by omega, hlt, rfl, hp⟩
  | case3 t ts hts ih =>
    have ht := h t List.mem_cons_self
    rw [List.append_assoc] at hp
    by_cases hfirst : p < k
    · rw [List.getElem?_append_left (by omega)] at hp
      exact .inr ⟨0, p, t, by omega, hfirst, rfl, hp⟩
    · rw [List.getElem?_append_right (by omega)] at hp
      by_cases hsep : p - t.length < sep.length
      · rw [List.getElem?_append_left hsep] at hp
        exact .inl (List.mem_of_getElem? hp)
      · rw [List.getElem?_append_right (by omega)] at hp
        obtain hc | ⟨j, l, u, hpos, hl, hu, hc⟩ := ih (fun x hx => h x (List.mem_cons_of_mem t hx)) hp
        · exact .inl hc
        · refine .inr ⟨j + 1, l, u, ?_, hl, hu, hc⟩
          rw [Nat.succ_mul]
          omega

end Join

/-! ### A line -/

/-- Where the cell with number `q` on a line begins, counted from the end of the address. -/
def offset (q : Nat) : Nat := 4 * q + if 8 ≤ q then 2 else 0

section Half

variable {cells : List (Option Cell)} (hlen : cells.length = halfSize)
  (hthree : ∀ c ∈ cells, (slotText c).length = 3)
include hthree

theorem length_of_mem_map_slotText : ∀ t ∈ cells.map slotText, t.length = 3 := by
  intro t ht
  obtain ⟨c, hc, rfl⟩ := List.mem_map.1 ht
  exact hthree c hc

include hlen

theorem length_halfText : (halfText cells).length = 31 := by
  have hne : cells.map slotText ≠ [] := by
    intro hnil
    rw [List.map_eq_nil_iff.1 hnil] at hlen
    cases hlen
  have hjoin := length_join [' '] (length_of_mem_map_slotText hthree) hne
  rw [List.length_map, hlen] at hjoin
  exact Nat.add_right_cancel hjoin

end Half

section Line

variable {cells : List (Option Cell)} (hlen : cells.length = rowSize)
  (hthree : ∀ c ∈ cells, (slotText c).length = 3)

include hlen in
theorem length_halves : (Chunk.blocks halfSize none cells).length = 2 := by
  rw [Chunk.length_blocks (by decide), hlen]
  rfl

include hlen in
/-- The cells of a half stand one after another on the line. -/
theorem getElem?_half {h j : Nat} {half : List (Option Cell)}
    (hh : (Chunk.blocks halfSize none cells)[h]? = some half) (hj : j < halfSize) :
    half[j]? = cells[8 * h + j]? := by
  have hlt := (List.getElem?_eq_some_iff.1 hh).1
  rw [length_halves hlen] at hlt
  have hj' : j < 8 := hj
  have hin : 8 * h + j < cells.length := by
    rw [hlen]
    change 8 * h + j < 16
    omega
  rw [Chunk.getElem?_of_blocks hh hj, Nat.mul_comm h, List.getD_eq_getElem?_getD,
    show halfSize * h + j = 8 * h + j from rfl, List.getElem?_eq_getElem hin]
  rfl

include hlen hthree in
theorem three_of_mem_half {h : Nat} {half : List (Option Cell)}
    (hh : (Chunk.blocks halfSize none cells)[h]? = some half) :
    half.length = halfSize ∧ ∀ c ∈ half, (slotText c).length = 3 := by
  have hhalf := Chunk.length_of_mem_blocks (List.mem_of_getElem? hh)
  refine ⟨hhalf, fun c hc => ?_⟩
  obtain ⟨j, hj, rfl⟩ := List.getElem_of_mem hc
  have hcell := getElem?_half hlen hh (hhalf ▸ hj)
  rw [List.getElem?_eq_getElem hj] at hcell
  exact hthree _ (List.mem_of_getElem? hcell.symm)

include hlen hthree

theorem length_of_mem_map_halfText :
    ∀ t ∈ (Chunk.blocks halfSize none cells).map halfText, t.length = 31 := by
  intro t ht
  obtain ⟨half, hmem, rfl⟩ := List.mem_map.1 ht
  obtain ⟨h, hlt, rfl⟩ := List.getElem_of_mem hmem
  obtain ⟨hhalf, hslots⟩ := three_of_mem_half hlen hthree (List.getElem?_eq_getElem hlt)
  exact length_halfText hhalf hslots

theorem length_lineText (start : Nat) :
    (lineText start cells).length = (address start).length + 65 := by
  have hne : (Chunk.blocks halfSize none cells).map halfText ≠ [] := by
    refine List.ne_nil_of_length_pos ?_
    rw [List.length_map, length_halves hlen]
    decide
  have hjoin := length_join [' ', ' ', ' '] (length_of_mem_map_halfText hlen hthree) hne
  rw [List.length_map, length_halves hlen] at hjoin
  have hbody : (join [' ', ' ', ' '] ((Chunk.blocks halfSize none cells).map halfText)).length = 65 :=
    Nat.add_right_cancel hjoin
  rw [lineText, List.length_append, hbody]

/-- Every cell of a line has its place. -/
theorem prefix_drop_lineText (start : Nat) {q : Nat} {c : Option Cell} (hq : cells[q]? = some c) :
    slotText c <+: (lineText start cells).drop ((address start).length + offset q) := by
  have hq16 : q < 16 := Nat.lt_of_lt_of_eq (List.getElem?_eq_some_iff.1 hq).1 hlen
  have hlt : q / 8 < (Chunk.blocks halfSize none cells).length := by
    rw [length_halves hlen]
    omega
  obtain ⟨half, hh⟩ : ∃ half, (Chunk.blocks halfSize none cells)[q / 8]? = some half :=
    ⟨_, List.getElem?_eq_getElem hlt⟩
  obtain ⟨-, hslots⟩ := three_of_mem_half hlen hthree hh
  have hcell : (half.map slotText)[q % 8]? = some (slotText c) := by
    rw [List.getElem?_map, getElem?_half hlen hh (j := q % 8) (Nat.mod_lt q (by decide)),
      Nat.div_add_mod, hq]
    rfl
  have hslot := prefix_drop_join [' '] (length_of_mem_map_slotText hslots) hcell
  have hhalf := prefix_drop_join [' ', ' ', ' '] (length_of_mem_map_halfText hlen hthree)
    (j := q / 8) (t := halfText half) (by rw [List.getElem?_map, hh]; rfl)
  have hoffset : offset q = q / 8 * 34 + q % 8 * 4 := by
    unfold offset
    split <;> omega
  rw [lineText, List.drop_length_add_append, hoffset, ← List.drop_drop]
  exact hslot.trans (hhalf.drop _)

/-- Behind the address, every character belongs to the place of a cell or is blank. -/
theorem exists_of_getElem?_lineText {start p : Nat} {x : Char}
    (hx : (lineText start cells)[p]? = some x) (hp : (address start).length ≤ p) :
    x = ' ' ∨ ∃ q l c, p = (address start).length + offset q + l ∧ l < 3 ∧ cells[q]? = some c ∧
      (slotText c)[l]? = some x := by
  have hblank : ∀ n, x ∈ List.replicate n ' ' → x = ' ' := fun n hn => (List.mem_replicate.1 hn).2
  rw [lineText, List.getElem?_append_right hp] at hx
  obtain hx | ⟨h, i, t, hpos, hi, ht, hx⟩ :=
    exists_of_getElem?_join _ (length_of_mem_map_halfText hlen hthree) hx
  · exact .inl (hblank 3 hx)
  · rw [List.getElem?_map] at ht
    obtain ⟨half, hh, rfl⟩ := Option.map_eq_some_iff.1 ht
    obtain ⟨hhalf, hslots⟩ := three_of_mem_half hlen hthree hh
    obtain hx | ⟨j, l, u, hi', hl, hu, hx⟩ :=
      exists_of_getElem?_join _ (length_of_mem_map_slotText hslots) hx
    · exact .inl (hblank 1 hx)
    · rw [List.getElem?_map] at hu
      obtain ⟨c, hc, rfl⟩ := Option.map_eq_some_iff.1 hu
      have hj : j < 8 := Nat.lt_of_lt_of_eq (List.getElem?_eq_some_iff.1 hc).1 hhalf
      have hh2 : h < 2 :=
        Nat.lt_of_lt_of_eq (List.getElem?_eq_some_iff.1 hh).1 (length_halves hlen)
      rw [getElem?_half hlen hh hj] at hc
      refine .inr ⟨8 * h + j, l, c, ?_, hl, hc, hx⟩
      have hoffset : offset (8 * h + j) = h * 34 + j * 4 := by
        unfold offset
        split <;> omega
      rw [hoffset]
      change p - (address start).length = h * 34 + i at hpos
      change i = j * 4 + l at hi'
      omega

end Line

/-! ### The lines of a memory -/

/-- The decimal numeral of the address of line `r`, with zeros in front up to three digits. -/
def addressNumeral (r : Nat) : List Char := (Nat.toDigits 10 (16 * r)).leftpad 3 '0'

/-- The column of the cell with number `i` on its line. -/
def column (i : Nat) : Nat :=
  (addressNumeral (i / 16)).length + 4 + 4 * (i % 16) + if 8 ≤ i % 16 then 2 else 0

/-- The three digits of a number below a thousand. -/
def threeDigits (n : Nat) : List Char :=
  [Nat.digitChar (n / 100), Nat.digitChar (n / 10 % 10), Nat.digitChar (n % 10)]

/-- What line `r` of the dump of some numbers looks like: its address, then every number that belongs
to it at its column, and blanks. -/
structure IsLine (ns : List Nat) (r : Nat) (text : List Char) : Prop where
  starts : ['0', 'x'] ++ addressNumeral r ++ [':', ' '] <+: text
  length_eq : text.length = (addressNumeral r).length + 69
  shows : ∀ i n, ns[i]? = some n → i / 16 = r → threeDigits n <+: text.drop (column i)
  blank : ∀ p, (addressNumeral r).length + 4 ≤ p → p < text.length →
    (∀ i < ns.length, i / 16 = r → p < column i ∨ column i + 3 ≤ p) → text[p]? = some ' '

theorem address_eq_numeral (r : Nat) :
    address (r * rowSize) = ['0', 'x'] ++ addressNumeral r ++ [':', ' '] := by
  rw [addressNumeral, List.leftpad, ← Numeral.ofNat_eq_toDigits (by decide), Nat.mul_comm 16 r,
    address]
  simp only [rowSize, List.append_assoc]

theorem length_address (r : Nat) :
    (address (r * rowSize)).length = (addressNumeral r).length + 4 := by
  rw [address_eq_numeral, List.length_append, List.length_append, Nat.add_comm ['0', 'x'].length]
  rfl

theorem column_eq (i : Nat) :
    column i = (address (i / 16 * rowSize)).length + offset (i % 16) := by
  rw [column, length_address, offset, Nat.add_assoc]

/-- A number below a thousand has three places, and fills them. -/
theorem placeDigits_of_lt {n : Nat} (h : n < 1000) :
    placeDigits 3 n = [n / 100, n / 10 % 10, n % 10] := by
  have hdigits : Numeral.digits 10 n = if n < 10 then [n] else if n < 100 then [n / 10, n % 10]
      else [n / 100, n / 10 % 10, n % 10] := by
    split_ifs with hone htwo
    · exact Numeral.digits_of_lt hone
    · rw [Numeral.digits_of_le (by decide) (by omega), Numeral.digits_of_lt (by omega)]
      rfl
    · rw [Numeral.digits_of_le (by decide) (by omega), Numeral.digits_of_le (by decide) (by omega),
        Numeral.digits_of_lt (by omega), Nat.div_div_eq_div_mul]
      rfl
  unfold placeDigits
  rw [if_neg (by omega), Int.natAbs_natCast, hdigits, Nat.zero_add]
  split_ifs with hone htwo
  · rw [show n / 100 = 0 by omega, show n / 10 % 10 = 0 by omega, Nat.mod_eq_of_lt hone]
    rfl
  · rw [show n / 100 = 0 by omega, show n / 10 % 10 = n / 10 by omega]
    rfl
  · rfl

theorem slotText_int {n : Nat} (h : n < 1000) : slotText (some (.int n)) = threeDigits n := by
  have hsign : (if decide ((n : Int) < 0) then ['-'] else []) = [] := by
    rw [if_neg (by simp)]
  rw [slotText, places, hsign, placeDigits_of_lt h]
  rfl

section Memory

variable {ns : List Nat} (h : ∀ n ∈ ns, n ≤ 999)

/-- The numbers as cells that may be missing. -/
def slots (ns : List Nat) : List (Option Cell) := (ns.map fun n : Nat => Cell.int n).map some

theorem getD_slots (i : Nat) : (slots ns).getD i none = ns[i]?.map fun n : Nat => Cell.int n := by
  rw [slots, List.getD_eq_getElem?_getD, List.getElem?_map, List.getElem?_map]
  cases ns[i]? <;> rfl

section Row

variable {r : Nat} {row : List (Option Cell)}
  (hrow : (Chunk.blocks rowSize none (slots ns))[r]? = some row)
include hrow

theorem length_row : row.length = rowSize :=
  Chunk.length_of_mem_blocks (List.mem_of_getElem? hrow)

theorem getElem?_row {q : Nat} (hq : q < 16) :
    row[q]? = some (ns[16 * r + q]?.map fun n : Nat => Cell.int n) := by
  rw [Chunk.getElem?_of_blocks hrow hq, getD_slots, Nat.mul_comm r]
  rfl

include h

theorem length_slotText_of_mem_row : ∀ c ∈ row, (slotText c).length = 3 := by
  intro c hc
  obtain ⟨q, hq, rfl⟩ := List.getElem_of_mem hc
  have hcell := getElem?_row hrow (Nat.lt_of_lt_of_eq hq (length_row hrow))
  rw [List.getElem?_eq_getElem hq] at hcell
  rw [Option.some.inj hcell]
  cases hn : ns[16 * r + q]? with
  | none => rfl
  | some n =>
    have := h n (List.mem_of_getElem? hn)
    rw [Option.map_some, slotText_int (by omega)]
    rfl

/-- The text of a row is a line of the dump. -/
theorem isLine_lineText : IsLine ns r (lineText (r * rowSize) row) where
  starts := by
    rw [← address_eq_numeral]
    exact List.prefix_append _ _
  length_eq := by
    rw [length_lineText (length_row hrow) (length_slotText_of_mem_row h hrow), length_address]
  shows := by
    intro i n hn hi
    have hcell := getElem?_row hrow (Nat.mod_lt i (by decide))
    rw [← hi, Nat.div_add_mod, hn] at hcell
    have hle := h n (List.mem_of_getElem? hn)
    rw [← slotText_int (by omega), column_eq, hi]
    exact prefix_drop_lineText (length_row hrow) (length_slotText_of_mem_row h hrow) _ hcell
  blank := by
    intro p hp hlt hfree
    rw [← length_address] at hp
    rw [List.getElem?_eq_getElem hlt]
    obtain hx | ⟨q, l, c, hpos, hl, hc, hx⟩ :=
      exists_of_getElem?_lineText (length_row hrow) (length_slotText_of_mem_row h hrow)
        (List.getElem?_eq_getElem hlt) hp
    · rw [hx]
    · have hq : q < 16 := Nat.lt_of_lt_of_eq (List.getElem?_eq_some_iff.1 hc).1 (length_row hrow)
      rw [getElem?_row hrow hq] at hc
      have hc := Option.some.inj hc
      cases hn : ns[16 * r + q]? with
      | none =>
        -- The place of a missing number is blank.
        rw [hn] at hc
        obtain rfl := hc
        rw [← hx]
        exact List.getElem?_replicate_of_lt hl
      | some n =>
        -- The place of a number is not free.
        have hdiv : (16 * r + q) / 16 = r := by omega
        have hcol := hfree (16 * r + q) (List.getElem?_eq_some_iff.1 hn).1 hdiv
        rw [column_eq, hdiv, show (16 * r + q) % 16 = q by omega] at hcol
        omega

end Row

end Memory

theorem linesText_eq (r : Nat) (rows : List (List (Option Cell))) :
    linesText r rows =
      (rows.mapIdx fun k row => lineText ((r + k) * rowSize) row).flatMap (· ++ ['\n']) := by
  induction rows generalizing r with
  | nil => rfl
  | cons row rows ih =>
    rw [linesText, ih, List.mapIdx_cons, List.flatMap_cons]
    simp only [Nat.add_zero, Nat.add_assoc, Nat.add_comm 1]

/-- **The columns of a dump.**  The dump of `L` numbers of at most three digits has `L / 16` lines,
rounded up, each ended by a newline.  Line `r` begins with its address, and is 69 characters longer
than the numeral in it, the last line included.  The number at `i` stands in three digits on line
`i / 16` at its column, and every other character behind the address is blank. -/
theorem memory_columns {ns : List Nat} (h : ∀ n ∈ ns, n ≤ 999) :
    ∃ lines : List (List Char),
      ofCells "03d" (ns.map fun n : Nat => .int n) =
          .ok (String.ofList (lines.flatMap (· ++ ['\n']))) ∧
        (∀ text ∈ lines, '\n' ∉ text) ∧ lines.length = (ns.length + 15) / 16 ∧
        (∀ r text, lines[r]? = some text → IsLine ns r text) ∧
        ∀ i < ns.length, ∃ text, lines[i / 16]? = some text := by
  obtain ⟨rows, hrows⟩ : ∃ rows, rows = Chunk.blocks rowSize none (slots ns) := ⟨_, rfl⟩
  obtain ⟨lines, hlines⟩ : ∃ lines,
      lines = rows.mapIdx fun k row => lineText (k * rowSize) row := ⟨_, rfl⟩
  have hcount : lines.length = (ns.length + 15) / 16 := by
    rw [hlines, List.length_mapIdx, hrows, Chunk.length_blocks (by decide), slots, List.length_map,
      List.length_map]
    rfl
  have hline : ∀ r text, lines[r]? = some text → IsLine ns r text := by
    intro r text hr
    rw [hlines, List.getElem?_mapIdx] at hr
    obtain ⟨row, hrow, rfl⟩ := Option.map_eq_some_iff.1 hr
    exact isLine_lineText h (hrows ▸ hrow)
  refine ⟨lines, ?_, fun text hmem => ?_, hcount, hline, fun i hi => ?_⟩
  · have hblock : ¬ HasBlock (ns.map fun n : Nat => Cell.int n) := by
      rintro ⟨bs, hbs⟩
      obtain ⟨n, -, hn⟩ := List.mem_map.1 hbs
      cases hn
    rw [(lays_ofCells _).gives hblock, ofCellsText, linesText_eq, hlines, hrows]
    simp only [Nat.zero_add]
    rfl
  · rw [hlines] at hmem
    obtain ⟨k, hk, rfl⟩ := List.mem_mapIdx.1 hmem
    exact newline_not_mem_lineText _ _
  · have hlt : i / 16 < lines.length := by omega
    exact ⟨_, List.getElem?_eq_getElem hlt⟩

/-- More than a thousand numbers: the last line has an address of four digits, and a 19 in its twelfth
place with nothing behind it. -/
theorem memory_columns_long :
    ∃ ns : List Nat, ns = List.range 1000 ++ List.range 20 ∧ (∀ n ∈ ns, n ≤ 999) ∧
      ∃ (lines : List (List Char)) (text : List Char), ofCells "03d" (ns.map fun n : Nat => .int n) =
          .ok (String.ofList (lines.flatMap (· ++ ['\n']))) ∧
        lines.length = 64 ∧ lines[63]? = some text ∧ text.length = 73 ∧
        "0x1008: ".toList <+: text ∧ "019".toList <+: text.drop 54 ∧ text[57]? = some ' ' := by
  obtain ⟨ns, hns⟩ : ∃ ns, ns = List.range 1000 ++ List.range 20 := ⟨_, rfl⟩
  have hle : ∀ n ∈ ns, n ≤ 999 := by
    intro n hn
    simp only [hns, List.mem_append, List.mem_range] at hn
    omega
  have hlen : ns.length = 1020 := by simp [hns]
  have hlast : ns[1019]? = some 19 := by simp [hns]
  obtain ⟨lines, hdump, -, hcount, hline, hexists⟩ := memory_columns hle
  obtain ⟨text, hget⟩ := hexists 1019 (by omega)
  obtain ⟨hstarts, hlength, hshows, hblank⟩ := hline 63 text hget
  have hnumeral : addressNumeral 63 = ['1', '0', '0', '8'] := by decide
  rw [hnumeral] at hstarts hlength hblank
  refine ⟨ns, hns, hle, lines, text, hdump, by rw [hcount, hlen], hget, hlength, hstarts,
    hshows 1019 19 hlast rfl, hblank 57 (by decide) (by rw [hlength]; decide) fun i hi hrow => .inr ?_⟩
  rw [column, hrow, hnumeral]
  change 4 + 4 + 4 * (i % 16) + (if 8 ≤ i % 16 then 2 else 0) + 3 ≤ 57
  split <;> omega

end Dump

end TapeMachine
