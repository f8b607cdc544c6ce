import TapeMachine.Machine.Basic
import TapeMachine.Proofs.Numerals

/-!
# Dumps are read back

In a dump with at least three places to the number, `"03d"`, the numbers of a memory stand between
blanks, sixteen to the line, and missing cells are blank.  A reader that drops the address in front of
each line, splits what follows at the blanks and takes the words as numerals (`Dump.numbers?`) gets
the memory back, whatever the width of its numbers and however much of the last line is missing.  A
memory with a block has no such dump (`Dump.memory_read_back`).

Laying out is a computation that may fail, line by line and cell by cell.  `Dump.Lays` keeps the two
sides together: when it fails, and what it gives if it does not.  The reading then is about texts
only: `Dump.words` is taken through the separators, `Dump.fields` through the lines.
-/

namespace TapeMachine

/-! ### Numbers in three places -/

namespace Format

/-- The digits of a number, with zeros in front of them up to a width, the sign counted. -/
def placeDigits (width : Nat) (i : Int) : List Nat :=
  List.replicate (width - ((if i < 0 then 1 else 0) + (Numeral.digits 10 i.natAbs).length)) 0 ++
    Numeral.digits 10 i.natAbs

/-- A number in at least `width` places, with zeros after the sign. -/
def places (width : Nat) (i : Int) : List Char :=
  (if decide (i < 0) then ['-'] else []) ++ (placeDigits width i).map Nat.digitChar

/-- Zeros between sign and digits fill the width, so nothing is left to be padded. -/
theorem number_zeroFilled (width : Nat) (i : Int) :
    number { fill := '0', align := .afterSign, width := some width } .decimal i =
      places width i := by
  obtain ⟨front, hfront⟩ : ∃ front, front = signText none (decide (i < 0)) ++ [] := ⟨_, rfl⟩
  obtain ⟨back, hback⟩ : ∃ back, back =
      List.replicate (width - front.length - (Numeral.ofNat 10 i.natAbs).length) '0' ++
        Numeral.ofNat 10 i.natAbs := ⟨_, rfl⟩
  have hnumber : number { fill := '0', align := .afterSign, width := some width } .decimal i =
      front ++ List.replicate (width - (front.length + back.length)) '0' ++ back := by
    rw [hback, hfront]
    rfl
  have hfilled : width - (front.length + back.length) = 0 := by
    rw [hback, List.length_append, List.length_replicate]
    omega
  rw [hnumber, hfilled, List.replicate_zero, List.append_nil, hback, places, placeDigits,
    List.map_append, List.map_replicate, Numeral.ofNat, List.length_map, Nat.sub_sub]
  by_cases hi : i < 0
  · rw [hfront, decide_eq_true hi, if_pos hi]
    rfl
  · rw [hfront, decide_eq_false hi, if_neg hi]
    rfl

theorem int_places (i : Int) : int "03d" i = .ok (places 3 i) := by
  have hspec : Spec.parse "03d".toList =
      .ok { fill := '0', align := .afterSign, width := some 3 } := rfl
  rw [int, if_neg (by decide), hspec, ← number_zeroFilled]
  rfl

theorem placeDigits_lt (width : Nat) (i : Int) : ∀ d ∈ placeDigits width i, d < 10 := by
  intro d hd
  rcases List.mem_append.1 hd with hd | hd
  · obtain rfl := (List.mem_replicate.1 hd).2
    decide
  · exact Numeral.digits_lt (by decide) _ d hd

theorem placeDigits_ne_nil (width : Nat) (i : Int) : placeDigits width i ≠ [] :=
  List.append_ne_nil_of_right_ne_nil _ (Numeral.digits_ne_nil 10 _)

theorem length_placeDigits_le {width : Nat} {i : Int} (hw : width ≤ Numeral.maxDigits)
    (h : (Numeral.digits 10 i.natAbs).length ≤ Numeral.maxDigits) :
    (placeDigits width i).length ≤ Numeral.maxDigits := by
  rw [placeDigits, List.length_append, List.length_replicate]
  omega

/-- A number is read back, if neither it nor the width has more digits than a numeral may have. -/
theorem read_places {width : Nat} {i : Int} (hw : width ≤ Numeral.maxDigits)
    (h : (Numeral.digits 10 i.natAbs).length ≤ Numeral.maxDigits) :
    Numeral.read (places width i) = .ok i := by
  rw [places, Numeral.read_of_digits (placeDigits_lt width i) _ (placeDigits_ne_nil width i)
    (length_placeDigits_le hw h), placeDigits, Numeral.value_replicate_append, Numeral.value_digits]
  refine congrArg Except.ok ?_
  by_cases hi : i < 0
  · rw [if_pos (decide_eq_true hi)]
    omega
  · rw [if_neg (by simp [hi])]
    omega

/-- No separator stands in a number. -/
theorem not_mem_places {c : Char} (hc : c ∈ [':', ' ', '\n']) (width : Nat) (i : Int) :
    c ∉ places width i := by
  intro hmem
  rcases List.mem_append.1 hmem with hmem | hmem
  · split at hmem
    · obtain rfl := List.mem_singleton.1 hmem
      exact absurd hc (by decide)
    · cases hmem
  · obtain ⟨d, hd, rfl⟩ := List.mem_map.1 hmem
    refine Numeral.digitChar_ne_of_mem_marks (placeDigits_lt width i d hd) ?_ rfl
    exact List.mem_of_mem_drop (i := 3) hc

theorem places_ne_nil (width : Nat) (i : Int) : places width i ≠ [] :=
  List.append_ne_nil_of_right_ne_nil _ fun h => placeDigits_ne_nil width i (List.map_eq_nil_iff.1 h)

end Format

/-- Blocks put together again are the sequence, and the filling behind it. -/
theorem Chunk.exists_flatten_blocks {α : Type _} {n : Nat} (hn : 0 < n) (fill : α) (xs : List α) :
    ∃ k, (blocks n fill xs).flatten = xs ++ List.replicate k fill := by
  fun_induction blocks n fill xs with
  | case1 xs h =>
    obtain rfl := h.resolve_left (by omega)
    exact ⟨0, rfl⟩
  | case2 xs h ih =>
    rw [List.flatten_cons]
    by_cases hle : xs.length ≤ n
    · rw [List.take_of_length_le hle, List.drop_eq_nil_of_le hle, blocks_nil, List.flatten_nil,
        List.append_nil]
      exact ⟨n - xs.length, rfl⟩
    · obtain ⟨k, hk⟩ := ih
      rw [hk, Nat.sub_eq_zero_of_le (by omega), List.replicate_zero, List.append_nil,
        ← List.append_assoc, List.take_append_drop]
      exact ⟨k, rfl⟩

namespace Dump

open Format

/-! ### Words and lines -/

/-- The words of a text, which stand between blanks. -/
def words (cs : List Char) : List (List Char) := (cs.splitOn ' ').filter fun w => !w.isEmpty

/-- What stands behind the address of a line. -/
def afterAddress (line : List Char) : List Char := (line.dropWhile fun c => c != ':').drop 1

/-- The words of a text behind the addresses of its lines. -/
def fields (cs : List Char) : List (List Char) :=
  (cs.splitOn '\n').flatMap fun line => words (afterAddress line)

/-- The numbers of a dump. -/
def numbers? (text : String) : Option (List Int) :=
  (fields text.toList).mapM fun w => (Numeral.read w).toOption

theorem words_append_blank (xs ys : List Char) : words (xs ++ ' ' :: ys) = words xs ++ words ys := by
  rw [words, List.splitOn_append_cons_self, List.filter_append]
  rfl

theorem words_of_not_mem {w : List Char} (hne : w ≠ []) (hw : ' ' ∉ w) : words w = [w] := by
  rw [words, List.splitOn_eq_singleton hw]
  cases w with
  | nil => exact absurd rfl hne
  | cons c w => rfl

theorem words_blanks_append (n : Nat) (ys : List Char) :
    words (List.replicate n ' ' ++ ys) = words ys := by
  induction n with
  | zero => rfl
  | succ n ih => exact (words_append_blank [] _).trans ih

theorem words_append_blanks (n : Nat) (xs ys : List Char) :
    words (xs ++ List.replicate (n + 1) ' ' ++ ys) = words xs ++ words ys := by
  rw [List.append_assoc, List.replicate_succ, List.cons_append, words_append_blank,
    words_blanks_append]

/-- The words of texts with blanks between them are the words of the texts. -/
theorem words_join (n : Nat) (ts : List (List Char)) :
    words (join (List.replicate (n + 1) ' ') ts) = ts.flatMap words := by
  fun_induction join with
  | case1 => rfl
  | case2 t => simp
  | case3 t ts hne ih => rw [words_append_blanks, ih, List.flatMap_cons]

theorem not_mem_join {c : Char} {sep : List Char} {ts : List (List Char)} (hsep : c ∉ sep)
    (hts : ∀ t ∈ ts, c ∉ t) : c ∉ join sep ts := by
  fun_induction join sep ts with
  | case1 => exact List.not_mem_nil
  | case2 t => exact hts t List.mem_cons_self
  | case3 t ts hne ih =>
    simp only [List.mem_append, not_or]
    exact ⟨⟨hts t List.mem_cons_self, hsep⟩, ih fun u hu => hts u (List.mem_cons_of_mem t hu)⟩

theorem fields_append_newline {line : List Char} (h : '\n' ∉ line) (rest : List Char) :
    fields (line ++ '\n' :: rest) = words (afterAddress line) ++ fields rest := by
  rw [fields, List.splitOn_append_cons_self, List.splitOn_eq_singleton h]
  rfl

/-- What stands in front of the colon of an address. -/
def addressDigits (n : Nat) : List Char :=
  ['0', 'x'] ++ List.replicate (3 - (Numeral.ofNat 10 n).length) '0' ++ Numeral.ofNat 10 n

theorem not_mem_addressDigits {c : Char} (hc : c ∈ [':', '\n']) (n : Nat) : c ∉ addressDigits n := by
  have hcases : c = ':' ∨ c = '\n' := by simpa using hc
  have hmarks : c ∈ Numeral.marks := by rcases hcases with rfl | rfl <;> decide
  have hzerox : c ∉ ['0', 'x'] := by rcases hcases with rfl | rfl <;> decide
  have hdigit : ∀ d < 10, Nat.digitChar d ≠ c := fun d hd =>
    Numeral.digitChar_ne_of_mem_marks hd hmarks
  simp only [addressDigits, List.mem_append, not_or]
  refine ⟨⟨hzerox, fun h => hdigit 0 (by decide) (List.mem_replicate.1 h).2.symm⟩, fun h => ?_⟩
  obtain ⟨d, hd, rfl⟩ := List.mem_map.1 h
  exact hdigit d (Numeral.digits_lt (by decide) n d hd) rfl

theorem address_eq (n : Nat) : address n = addressDigits n ++ [':', ' '] := rfl

theorem afterAddress_address (n : Nat) (cs : List Char) :
    afterAddress (address n ++ cs) = ' ' :: cs := by
  have hdigits : ∀ c ∈ addressDigits n, (c != ':') = true := by
    intro c hc
    refine bne_iff_ne.2 ?_
    rintro rfl
    exact not_mem_addressDigits List.mem_cons_self n hc
  rw [afterAddress, address_eq, List.append_assoc, List.dropWhile_append_of_pos hdigits]
  rfl

/-! ### Laying out -/

/-- The computation fails on a block if `bad` holds, and gives `a` otherwise. -/
structure Lays {α : Type} (x : Except Format.Fault α) (bad : Prop) (a : α) : Prop where
  fails : bad → x = .error .blockWithSpec
  gives : ¬ bad → x = .ok a

namespace Lays

variable {α β : Type} {x : Except Format.Fault α} {a : α} {b : β} {bad bad' : Prop}

theorem congr (h : Lays x bad a) (hb : bad ↔ bad') : Lays x bad' a :=
  ⟨fun hbad => h.fails (hb.2 hbad), fun hbad => h.gives fun hx => hbad (hb.1 hx)⟩

theorem bad_of_eq_error (h : Lays x bad a) {f : Format.Fault} (hx : x = .error f) : bad :=
  Classical.byContradiction fun hbad => nomatch hx.symm.trans (h.gives hbad)

theorem ok (a : α) : Lays (.ok a) False a := ⟨False.elim, fun _ => rfl⟩

/-- One computation after the other. -/
theorem bind {f : α → Except Format.Fault β} (hx : Lays x bad a) (hf : Lays (f a) bad' b) :
    Lays (x >>= f) (bad ∨ bad') b := by
  by_cases hbad : bad
  · rw [hx.fails hbad]
    exact ⟨fun _ => rfl, fun h => absurd (.inl hbad) h⟩
  · rw [hx.gives hbad]
    exact ⟨fun h => hf.fails (h.resolve_left hbad), fun h => hf.gives fun hb => h (.inr hb)⟩

theorem map (f : α → β) (hx : Lays x bad a) : Lays (do return f (← x)) bad (f a) :=
  (hx.bind (ok (f a))).congr (iff_of_eq (or_false bad))

/-- The same computation for each of several values. -/
theorem mapM {f : α → Except Format.Fault β} {g : α → β} {isBad : α → Prop}
    (h : ∀ y, Lays (f y) (isBad y) (g y)) (ys : List α) :
    Lays (ys.mapM f) (∃ y ∈ ys, isBad y) (ys.map g) := by
  induction ys with
  | nil => exact (ok []).congr (by simp)
  | cons y ys ih =>
    rw [List.mapM_cons]
    exact ((h y).bind (ih.map _)).congr (by simp)

end Lays

/-- The cell is there, and it is a block. -/
def IsBlock (c : Option Cell) : Prop := ∃ bs, c = some (.block bs)

/-- The text of a cell that is no block. -/
def slotText : Option Cell → List Char
  | some (.int i) => places 3 i
  | _ => List.replicate 3 ' '

/-- The text of half a line. -/
def halfText (cells : List (Option Cell)) : List Char := join [' '] (cells.map slotText)

/-- The text of a line, without the newline. -/
def lineText (start : Nat) (cells : List (Option Cell)) : List Char :=
  address start ++ join [' ', ' ', ' '] ((Chunk.blocks halfSize none cells).map halfText)

/-- The text of the lines of a dump, numbered from line `r`. -/
def linesText : Nat → List (List (Option Cell)) → List Char
  | _, [] => []
  | r, row :: rows => lineText (r * rowSize) row ++ ['\n'] ++ linesText (r + 1) rows

theorem lays_slot (c : Option Cell) : Lays (slot "03d" c) (IsBlock c) (slotText c) := by
  cases c with
  | none =>
    have hzero : (places 3 0).length = 3 := by decide +kernel
    refine ⟨nofun, fun _ => ?_⟩
    rw [slot, int_places]
    exact congrArg (fun n => Except.ok (List.replicate n ' ')) hzero
  | some c =>
    cases c with
    | int i => exact ⟨nofun, fun _ => int_places i⟩
    | block bs => exact ⟨fun _ => rfl, fun h => absurd ⟨bs, rfl⟩ h⟩

theorem lays_half (cells : List (Option Cell)) :
    Lays (half "03d" cells) (∃ c ∈ cells, IsBlock c) (halfText cells) :=
  (Lays.mapM lays_slot cells).map _

theorem exists_mem_blocks {n : Nat} (hn : 0 < n) (cells : List (Option Cell)) :
    (∃ row ∈ Chunk.blocks n none cells, ∃ c ∈ row, IsBlock c) ↔ ∃ c ∈ cells, IsBlock c := by
  obtain ⟨k, hk⟩ := Chunk.exists_flatten_blocks hn none cells
  have hflatten : (∃ row ∈ Chunk.blocks n none cells, ∃ c ∈ row, IsBlock c) ↔
      ∃ c ∈ (Chunk.blocks n none cells).flatten, IsBlock c := by
    simp only [List.mem_flatten]
    exact ⟨fun ⟨row, hrow, c, hc, hb⟩ => ⟨c, ⟨row, hrow, hc⟩, hb⟩,
      fun ⟨c, ⟨row, hrow, hc⟩, hb⟩ => ⟨row, hrow, c, hc, hb⟩⟩
  rw [hflatten, hk]
  refine ⟨fun ⟨c, hc, hb⟩ => ?_, fun ⟨c, hc, hb⟩ => ⟨c, List.mem_append_left _ hc, hb⟩⟩
  rcases List.mem_append.1 hc with hc | hc
  · exact ⟨c, hc, hb⟩
  · obtain ⟨bs, rfl⟩ := hb
    cases (List.mem_replicate.1 hc).2

theorem lays_line (start : Nat) (cells : List (Option Cell)) :
    Lays (line "03d" start cells) (∃ c ∈ cells, IsBlock c) (lineText start cells ++ ['\n']) :=
  ((Lays.mapM lays_half (Chunk.blocks halfSize none cells)).map _).congr
    (exists_mem_blocks (by decide) cells)

theorem lays_lines (r : Nat) (rows : List (List (Option Cell))) :
    Lays (lines "03d" r rows) (∃ row ∈ rows, ∃ c ∈ row, IsBlock c) (linesText r rows) := by
  induction rows generalizing r with
  | nil => exact (Lays.ok []).congr (by simp)
  | cons row rows ih =>
    exact ((lays_line (r * rowSize) row).bind ((ih (r + 1)).map _)).congr (by simp)

/-- The dump of a memory without blocks. -/
def ofCellsText (memory : List Cell) : List Char :=
  linesText 0 (Chunk.blocks rowSize none (memory.map some))

/-- Some cell of a memory is a block. -/
def HasBlock (memory : List Cell) : Prop := ∃ bs, Cell.block bs ∈ memory

theorem lays_ofCells (memory : List Cell) :
    Lays (ofCells "03d" memory) (HasBlock memory) (String.ofList (ofCellsText memory)) := by
  refine ((lays_lines 0 _).map String.ofList).congr ?_
  rw [exists_mem_blocks (by decide)]
  simp only [List.mem_map, IsBlock, HasBlock]
  exact ⟨fun ⟨_, ⟨c, hc, rfl⟩, bs, hb⟩ => ⟨bs, Option.some.inj hb ▸ hc⟩,
    fun ⟨bs, hbs⟩ => ⟨_, ⟨_, hbs, rfl⟩, bs, rfl⟩⟩

/-! ### Reading back -/

theorem words_slotText (c : Option Cell) : words (slotText c) =
    match c with
    | some (.int i) => [places 3 i]
    | _ => [] := by
  cases c with
  | none => rfl
  | some c =>
    cases c with
    | int i => exact words_of_not_mem (places_ne_nil 3 i) (not_mem_places (by decide) 3 i)
    | block bs => rfl

/-- The words of cells, one cell after the other. -/
def cellWords (cells : List (Option Cell)) : List (List Char) :=
  cells.flatMap fun c => words (slotText c)

theorem words_halfText (cells : List (Option Cell)) : words (halfText cells) = cellWords cells :=
  (words_join 0 _).trans (List.flatMap_map _ _ _)

/-- Filling adds no words. -/
theorem flatMap_cellWords_blocks {n : Nat} (hn : 0 < n) (cells : List (Option Cell)) :
    (Chunk.blocks n none cells).flatMap cellWords = cellWords cells := by
  obtain ⟨k, hk⟩ := Chunk.exists_flatten_blocks hn none cells
  have hfill : cellWords (List.replicate k none) = [] :=
    List.flatMap_eq_nil_iff.2 fun c hc => by
      obtain rfl := (List.mem_replicate.1 hc).2
      rfl
  calc (Chunk.blocks n none cells).flatMap cellWords
      = cellWords (Chunk.blocks n none cells).flatten := by
        rw [cellWords, ← List.flatMap_id, List.flatMap_assoc]
        rfl
    _ = cellWords cells ++ cellWords (List.replicate k none) := by
        rw [hk, cellWords, List.flatMap_append]
        rfl
    _ = cellWords cells := by rw [hfill, List.append_nil]

theorem words_lineText (start : Nat) (cells : List (Option Cell)) :
    words (afterAddress (lineText start cells)) = cellWords cells := by
  rw [lineText, afterAddress_address]
  calc words (' ' :: join [' ', ' ', ' '] ((Chunk.blocks halfSize none cells).map halfText))
      = words (join [' ', ' ', ' '] ((Chunk.blocks halfSize none cells).map halfText)) :=
        words_append_blank [] _
    _ = (Chunk.blocks halfSize none cells).flatMap fun row => words (halfText row) :=
        (words_join 2 _).trans (List.flatMap_map _ _ _)
    _ = cellWords cells := by
        simp only [words_halfText]
        exact flatMap_cellWords_blocks (by decide) cells

theorem newline_not_mem_slotText (c : Option Cell) : '\n' ∉ slotText c := by
  rcases c with _ | i | bs
  · exact fun h => absurd (List.mem_replicate.1 h).2 (by decide)
  · exact not_mem_places (by decide) 3 i
  · exact fun h => absurd (List.mem_replicate.1 h).2 (by decide)

theorem newline_not_mem_lineText (start : Nat) (cells : List (Option Cell)) :
    '\n' ∉ lineText start cells := by
  have hhalf : ∀ row : List (Option Cell), '\n' ∉ halfText row := fun row =>
    not_mem_join (by decide) fun t ht => by
      obtain ⟨c, -, rfl⟩ := List.mem_map.1 ht
      exact newline_not_mem_slotText c
  rw [lineText, address_eq]
  simp only [List.mem_append, not_or]
  refine ⟨⟨not_mem_addressDigits (by decide) start, by decide⟩, ?_⟩
  refine not_mem_join (by decide) fun t ht => ?_
  obtain ⟨row, -, rfl⟩ := List.mem_map.1 ht
  exact hhalf row

theorem fields_linesText (r : Nat) (rows : List (List (Option Cell))) :
    fields (linesText r rows) = rows.flatMap cellWords := by
  induction rows generalizing r with
  | nil => rfl
  | cons row rows ih =>
    rw [linesText, List.append_assoc, List.singleton_append,
      fields_append_newline (newline_not_mem_lineText _ row), words_lineText, ih,
      List.flatMap_cons]

theorem fields_ofCellsText (memory : List Cell) :
    fields (ofCellsText memory) = cellWords (memory.map some) :=
  (fields_linesText 0 _).trans (flatMap_cellWords_blocks (by decide) _)

/-- The numbers of a memory have no more digits than a numeral may have. -/
def Short (memory : List Cell) : Prop :=
  ∀ i, Cell.int i ∈ memory → (Numeral.digits 10 i.natAbs).length ≤ Numeral.maxDigits

theorem exists_eq_map_int {memory : List Cell} (h : ¬ HasBlock memory) :
    ∃ is : List Int, memory = is.map Cell.int := by
  induction memory with
  | nil => exact ⟨[], rfl⟩
  | cons c memory ih =>
    obtain ⟨is, rfl⟩ := ih fun ⟨bs, hbs⟩ => h ⟨bs, List.mem_cons_of_mem c hbs⟩
    cases c with
    | int i => exact ⟨i :: is, rfl⟩
    | block bs => exact absurd ⟨bs, List.mem_cons_self⟩ h

theorem cellWords_ints (is : List Int) :
    cellWords ((is.map Cell.int).map some) = is.map (places 3) := by
  induction is with
  | nil => rfl
  | cons i is ih =>
    rw [cellWords, List.map_cons, List.map_cons, List.flatMap_cons, words_slotText]
    exact congrArg (places 3 i :: ·) ih

theorem mapM_read_places {is : List Int}
    (h : ∀ i ∈ is, (Numeral.digits 10 i.natAbs).length ≤ Numeral.maxDigits) :
    (is.map (places 3)).mapM (fun w => (Numeral.read w).toOption) = some is := by
  induction is with
  | nil => rfl
  | cons i is ih =>
    rw [List.map_cons, List.mapM_cons, read_places (by decide) (h i List.mem_cons_self),
      ih fun j hj => h j (List.mem_cons_of_mem i hj)]
    rfl

/-- The numbers of the dump of a memory are the memory. -/
theorem numbers?_ofCellsText {memory : List Cell} (hshort : Short memory)
    (hblock : ¬ HasBlock memory) :
    (numbers? (String.ofList (ofCellsText memory))).map (List.map Cell.int) = some memory := by
  obtain ⟨is, rfl⟩ := exists_eq_map_int hblock
  rw [numbers?, String.toList_ofList, fields_ofCellsText, cellWords_ints,
    mapM_read_places fun i hi => hshort i (List.mem_map_of_mem hi)]
  rfl

/-- **A dump is read back.**  Laying out fails if and only if there is a block; otherwise the numbers
of the dump are the memory, so different memories have different dumps.  The same holds for the tape
of a frame. -/
theorem memory_read_back {memory : List Cell} (hshort : Short memory) :
    (ofCells "03d" memory = .error .blockWithSpec ↔ HasBlock memory) ∧
      (¬ HasBlock memory → ∃ text, ofCells "03d" memory = .ok text ∧
        (numbers? text).map (List.map Cell.int) = some memory) ∧
      (∀ other, Short other → ¬ HasBlock memory → ¬ HasBlock other →
        ofCells "03d" memory = ofCells "03d" other → memory = other) ∧
      ∀ f : Frame, f.cells = memory →
        ((∃ fault, f.dumpCells (some "03d") = .error fault) ↔ HasBlock f.cells) := by
  have hlays := lays_ofCells memory
  refine ⟨⟨hlays.bad_of_eq_error, hlays.fails⟩,
    fun hb => ⟨_, hlays.gives hb, numbers?_ofCellsText hshort hb⟩, fun other hother hb hb' h => ?_, ?_⟩
  · rw [hlays.gives hb, (lays_ofCells other).gives hb'] at h
    have hread := numbers?_ofCellsText hshort hb
    rw [Except.ok.inj h, numbers?_ofCellsText hother hb'] at hread
    exact (Option.some.inj hread).symm
  · rintro f rfl
    exact ⟨fun ⟨_, h⟩ => hlays.bad_of_eq_error h, fun hb => ⟨_, hlays.fails hb⟩⟩

/-- Seventeen numbers, the first below zero and the last of four digits, on a full line and one that
ends after its first cell; and the same with a block behind them. -/
theorem memory_read_back_broken_line :
    ∃ memory : List Cell, memory = (List.range 17).map (fun n => .int (100 * n - 150)) ∧
      Short memory ∧ ¬ HasBlock memory ∧
      (∃ text, ofCells "03d" memory = .ok text ∧
        (numbers? text).map (List.map Cell.int) = some memory) ∧
      ofCells "03d" (memory ++ [.block [7]]) = .error .blockWithSpec := by
  obtain ⟨memory, hm⟩ : ∃ memory : List Cell,
      memory = (List.range 17).map fun n => .int (100 * n - 150) := ⟨_, rfl⟩
  have hdigits : ∀ n ∈ List.range 17,
      (Numeral.digits 10 (100 * n - 150 : Int).natAbs).length ≤ Numeral.maxDigits := by
    decide +kernel
  have hshort : ∀ blocks : List (List UInt8), Short (memory ++ blocks.map Cell.block) := by
    intro blocks i hi
    rcases List.mem_append.1 hi with hi | hi
    · rw [hm] at hi
      obtain ⟨n, hn, hi⟩ := List.mem_map.1 hi
      cases hi
      exact hdigits n hn
    · obtain ⟨bs, -, hbs⟩ := List.mem_map.1 hi
      cases hbs
  have hblock : ¬ HasBlock memory := by
    rintro ⟨bs, hbs⟩
    rw [hm] at hbs
    obtain ⟨n, -, hn⟩ := List.mem_map.1 hbs
    cases hn
  have hs : Short memory := memory.append_nil ▸ hshort []
  refine ⟨memory, hm, hs, hblock, (memory_read_back hs).2.1 hblock, ?_⟩
  exact (memory_read_back (hshort [[7]])).1.2 ⟨[7], List.mem_append_right _ List.mem_cons_self⟩

end Dump

end TapeMachine
