import TapeMachine.Proofs.ByteCells

/-!
# When a step fails

On a tape of bytes the operators that count cannot fail, and neither can the arithmetic, the
conversions, the buffer and the jumps.  What is left is said by `World.Fails`: the instruction is no
operator, the pointer stands behind the tape, a loop is closed that was not opened, no mode has the
code, a reader gives what is not wanted, or a task does not take its buffer.  A step fails exactly
then (`Exec.advance_fails_iff`).

The condition names codes, replies and bytes and does not say how an operation works.  It is
decidable, so it can be evaluated beside the step.
-/

namespace TapeMachine

/-! ### The condition -/

namespace Text

/-- The text is read as a number: it is a numeral of digits only, or one character that is no
digit. -/
def IsNumber (t : String) : Prop :=
  (isDigits t.toList = true ∧ (Numeral.read t.toList).isOk = true) ∨
    (t.toList.length = 1 ∧ isDigits t.toList = false)

/-- The text is one character. -/
def IsCharacter (t : String) : Prop := t.toList.length = 1

/-- The text is one character, a digit. -/
def IsDigitCharacter (t : String) : Prop := t.toList.length = 1 ∧ isDigits t.toList = true

instance : DecidablePred IsNumber := fun _ => inferInstanceAs (Decidable (_ ∨ _))

instance : DecidablePred IsCharacter := fun _ => inferInstanceAs (Decidable (_ = _))

instance : DecidablePred IsDigitCharacter := fun _ => inferInstanceAs (Decidable (_ ∧ _))

end Text

/-- The reply is no text of the kind that is wanted. -/
def Reply.Fails (wanted : String → Prop) : Reply → Prop
  | .text t => ¬ wanted t
  | .nothing => True
  | .failure _ => True

instance (wanted : String → Prop) [DecidablePred wanted] : DecidablePred (Reply.Fails wanted)
  | .text t => inferInstanceAs (Decidable (¬ wanted t))
  | .nothing => isTrue trivial
  | .failure _ => isTrue trivial

/-- A reader is attached, and its next reply is no text of the kind that is wanted. -/
def Line.Fails (l : Line) (wanted : String → Prop) : Prop :=
  ∃ r ∈ l.ask?.map Prod.fst, r.Fails wanted

instance (l : Line) (wanted : String → Prop) [DecidablePred wanted] : Decidable (l.Fails wanted) :=
  inferInstanceAs (Decidable (∃ r ∈ l.ask?.map Prod.fst, r.Fails wanted))

/-- The buffer holds a byte outside ASCII. -/
def HasHighByte (bs : List UInt8) : Prop := ∃ b ∈ bs, 128 ≤ b.toNat

instance : DecidablePred HasHighByte := fun bs =>
  inferInstanceAs (Decidable (∃ b ∈ bs, 128 ≤ b.toNat))

/-- No task that works has its code in the cell, or the task does not take the buffer. -/
def Task.Fails (c : Cell) (bs : List UInt8) : Prop :=
  c ∉ ([0, 2, 4, 5, 6, 8, 9] : List Int).map Cell.int ∨
  c ∈ ([0, 2, 5, 6, 9] : List Int).map Cell.int ∧ HasHighByte bs ∨
  c = .int 8 ∧ (bs = [] ∨ HasHighByte bs) ∨
  c = .int 4 ∧ (bs.length < 3 ∨ HasHighByte (bs.drop 3))

instance (c : Cell) (bs : List UInt8) : Decidable (Task.Fails c bs) :=
  inferInstanceAs (Decidable (_ ∨ _))

/-- The character at the position. -/
def Machine.character? (m : Machine) : Option Char := (Index.get m.program m.position).toOption

namespace World

/-- The operation of the mode fails. -/
def OperationFails (w : World) : Prop :=
  (∀ n : Nat, n ≤ 27 → w.machine.mode ≠ .int n) ∨
  w.machine.mode = .int 1 ∧ w.lines.console.Fails Text.IsNumber ∨
  w.machine.mode = .int 3 ∧ w.lines.console.Fails Text.IsCharacter ∨
  w.machine.mode = .int 5 ∧ w.lines.modem.Fails Text.IsDigitCharacter ∨
  w.machine.mode = .int 7 ∧ ∃ c ∈ w.machine.cell.toOption, Task.Fails c w.machine.buffer

instance (w : World) : Decidable w.OperationFails := inferInstanceAs (Decidable (_ ∨ _))

/-- The next step fails. -/
def Fails (w : World) : Prop :=
  (∀ o ∈ Operator.all, w.machine.character? ≠ some o.symbol) ∨
  w.machine.pointer = State.tapeLength ∨
  w.machine.character? = some ']' ∧ w.machine.loops = [] ∨
  w.machine.character? = some '?' ∧ w.machine.deadDepth = 0 ∧ w.OperationFails

instance (w : World) : Decidable w.Fails := inferInstanceAs (Decidable (_ ∨ _))

end World

/-! ### What is read -/

namespace Operation

theorem isOk_codeOf (t : String) : (codeOf t).isOk = true ↔ Text.IsCharacter t := by
  unfold codeOf Text.IsCharacter
  split
  · rename_i h
    simp [h]
  · rename_i hne
    constructor
    · intro h
      cases h
    · intro h
      obtain ⟨ch, hch⟩ := List.length_eq_one_iff.1 h
      exact absurd hch (hne ch)

theorem isOk_numberOf (t : String) : (numberOf t).isOk = true ↔ Text.IsNumber t := by
  unfold numberOf Text.IsNumber
  cases hd : Text.isDigits t.toList with
  | true =>
    have hread : (numeralOf t).isOk = (Numeral.read t.toList).isOk := by
      unfold numeralOf
      split <;> rename_i h <;> rw [h] <;> rfl
    simp [hread]
  | false =>
    have hcode := isOk_codeOf t
    simp only [Bool.false_eq_true, ↓reduceIte, Exec.isOk_map, hcode, Text.IsCharacter]
    simp

end Operation

namespace Effect

/-- The operation ends in a fault. -/
def Fails (e : Effect) : Prop := e.fault ≠ none

variable {e : Effect}

theorem not_fails_of_fault_eq_none (h : e.fault = none) : ¬ e.Fails := fun hf => hf h

theorem ending_fails_iff (he : e.fault = none) (r : Except Fault (Option Cell)) :
    (e.ending r).Fails ↔ r.isOk = false := by
  cases r with
  | ok stored => simp [Fails, ending, he]
  | error f => simp [Fails, ending]

end Effect

open Effect Operation Exec

namespace Situation

variable {s : Situation}

theorem keep_not_fails {r : Except Fault (Option Cell)} (h : r.isOk = true) :
    ¬ ((s.keep []).ending r).Fails := by
  rw [ending_fails_iff rfl, h]
  decide

theorem take_not_fails {value : UInt8 → Except Fault (Option Cell)}
    (h : ∀ q, (value q).isOk = true) : ¬ (s.take value).Fails := by
  unfold take
  rw [ending_fails_iff rfl, h]
  decide

/-- Any writer takes a text. -/
theorem write_not_fails (ch : Channel) (t : String) : ¬ (s.write ch (.ok (.text t))).Fails := by
  refine not_fails_of_fault_eq_none ?_
  unfold write
  split <;> rfl

/-- A read fails when a reader is attached and gives no text that has a value. -/
theorem read_fails_iff {ch : Channel} {nothing : Fault} {value : String → Except Fault Cell}
    {wanted : String → Prop} (hv : ∀ t, (value t).isOk = true ↔ wanted t) :
    (s.read ch nothing value).Fails ↔ (s.lines.get ch).Fails wanted := by
  unfold read Line.Fails
  cases ha : (s.lines.get ch).ask? with
  | none => simp [Effect.Fails, keep]
  | some asked =>
    obtain ⟨reply, line⟩ := asked
    cases reply with
    | text t => simp [ending_fails_iff, Reply.Fails, ← hv]
    | nothing => simp [Effect.Fails, Reply.Fails]
    | failure reason => simp [Effect.Fails, Reply.Fails]

end Situation

/-! ### Tasks -/

theorem Operation.isOk_asciiText (bs : List UInt8) :
    (asciiText bs).isOk = false ↔ HasHighByte bs := by
  have hok : (asciiText bs).isOk =
      !(bs.findIdx? fun b => decide (128 ≤ b.toNat)).isSome := by
    unfold asciiText
    cases bs.findIdx? fun b => decide (128 ≤ b.toNat) <;> rfl
  rw [hok, List.findIdx?_isSome, Bool.not_eq_false', List.any_eq_true]
  simp only [decide_eq_true_eq, HasHighByte]

theorem Operation.toList_of_asciiText {bs : List UInt8} {text : String}
    (h : asciiText bs = .ok text) : text.toList = bs.map Text.byteChar := by
  unfold asciiText at h
  split at h <;> cases h
  exact String.toList_ofList

theorem Task.eq_of_ofCell? {c : Cell} {t : Task} (h : ofCell? c = some t) : c = .int t.code := by
  cases c with
  | block bs => cases h
  | int i =>
    have hcode := List.find?_some h
    rw [beq_iff_eq] at hcode
    rw [hcode]

/-- A task fails where its code and the buffer say so. -/
theorem Task.effect_fails_iff (t : Task) (s : Situation) :
    (t.effect s).Fails ↔ Task.Fails (.int t.code) s.buffer := by
  have htext := isOk_asciiText s.buffer
  cases t with
  | config => simp [Task.effect, Effect.Fails, Task.Fails, Task.code]
  | blinken =>
    simp only [Task.effect]
    split <;> simp [Effect.Fails, Task.Fails, Task.code]
  | scroller =>
    simp only [Task.effect]
    split
    · -- The first three bytes are parameters and may be any.
      rename_i pingPong steps blanks rest hb
      have hrest := isOk_asciiText rest
      split <;> rename_i h <;> rw [h] at hrest <;>
        simp [Effect.Fails, Situation.keep, Task.Fails, Task.code, hb, ← hrest]
    · rename_i hshort
      have hlen : s.buffer.length < 3 := by
        rcases hb : s.buffer with _ | ⟨a, _ | ⟨b, _ | ⟨c, rest⟩⟩⟩
        · decide
        · simp
        · simp
        · exact absurd hb (hshort a b c rest)
      simp [Effect.Fails, Task.Fails, Task.code, hlen]
  | autoDialTone =>
    simp only [Task.effect]
    split
    · -- The text has a character for each byte, so it is empty only if the buffer is.
      rename_i text h
      have hlist := toList_of_asciiText h
      rw [h] at htext
      split
      · rename_i hnil
        have hb : s.buffer = [] := by
          rw [hnil] at hlist
          exact List.map_eq_nil_iff.1 hlist.symm
        simp [Effect.Fails, Task.Fails, Task.code, hb]
      · rename_i number rest hcons
        have hb : s.buffer ≠ [] := by
          rintro hb
          rw [hcons, hb] at hlist
          cases hlist
        simp [Effect.Fails, Situation.keep, Task.Fails, Task.code, hb, ← htext]
    · rename_i h
      rw [h] at htext
      simp [Effect.Fails, Task.Fails, Task.code, ← htext]
  | interpreter | toneGenerator | editor | commandLine | dialer =>
    simp only [Task.effect]
    split <;> rename_i h <;> rw [h] at htext <;>
      simp [Effect.Fails, Situation.keep, Task.Fails, Task.code, ← htext]

theorem Situation.task_fails_iff (s : Situation) : s.task.Fails ↔ Task.Fails s.cell s.buffer := by
  unfold Situation.task
  cases ht : Task.ofCell? s.cell with
  | none =>
    have hcode : s.cell ∉ ([0, 2, 4, 5, 6, 8, 9] : List Int).map Cell.int := by
      have hall : ∀ i ∈ ([0, 2, 4, 5, 6, 8, 9] : List Int),
          (Task.ofCell? (.int i)).isSome = true := by decide
      intro hmem
      obtain ⟨i, hi, hc⟩ := List.mem_map.1 hmem
      have hsome := hall i hi
      rw [hc, ht] at hsome
      cases hsome
    simp only [Effect.Fails, ne_eq, reduceCtorEq, not_false_eq_true, true_iff]
    exact .inl hcode
  | some t =>
    rw [Task.eq_of_ofCell? ht]
    exact t.effect_fails_iff s

/-! ### Operations on bytes -/

namespace Rounding

theorem nearest_le (a b : Nat) : nearest a b ≤ a + 1 := by
  have hq := Nat.div_le_self a b
  unfold nearest
  dsimp only
  split <;> omega

/-- The rounded quotient of a byte is small. -/
theorem quotient_le {a : Nat} (ha : a ≤ 255) (b : Nat) : quotient a b ≤ 256 := by
  unfold quotient
  split
  · omega
  · rename_i hne
    have hdiv : a / b ≤ 255 := Nat.le_trans (Nat.div_le_self a b) ha
    have hlog : Nat.log2 (a / b) < 8 := (Nat.log2_lt hne).2 (by omega)
    dsimp only
    -- Eight bits are fewer than the precision, so the quotient is scaled up to be rounded.
    rw [if_neg (by unfold precision; omega)]
    generalize precision - (Nat.log2 (a / b) + 1) = k
    have hscale : 0 < 1 <<< k := by
      rw [Nat.one_shiftLeft]
      exact Nat.two_pow_pos k
    generalize 1 <<< k = scale at hscale
    have hnear := nearest_le (a * scale) b
    have hle : nearest (a * scale) b ≤ scale * 256 := by
      have : a * scale ≤ 255 * scale := Nat.mul_le_mul_right scale ha
      omega
    exact Nat.div_le_of_le_mul hle

theorem isSome_divide? {a : Int} (ha : 0 ≤ a) (ha' : a ≤ 255) (b : Nat) :
    (divide? a b).isSome = true := by
  have hq := quotient_le (a := a.natAbs) (by omega) b
  have hlimit : 256 < limit := by decide +kernel
  unfold divide?
  dsimp only
  rw [if_neg (by omega)]
  rfl

end Rounding

namespace Operation

theorem characterOf_of_isByte {i : Int} (hi : 0 ≤ i) (hi' : i ≤ 255) :
    characterOf (.int i) = .ok (.text (String.singleton (Char.ofNat i.toNat))) := by
  unfold characterOf
  dsimp only
  rw [if_neg (by omega), if_neg (by omega), if_neg (by omega)]

theorem bitwise_isByte (op : Bitwise) {i : Int} (hi : 0 ≤ i) (hi' : i ≤ 255) (q : UInt8) :
    0 ≤ bitwise op i q.toNat ∧ bitwise op i q.toNat ≤ 255 := by
  obtain ⟨n, rfl⟩ := Int.eq_ofNat_of_zero_le hi
  have hn : n < 2 ^ 8 := by omega
  have hq : q.toNat < 2 ^ 8 := q.toNat_lt
  cases op with
  | and =>
    have := Nat.and_lt_two_pow n hq
    change 0 ≤ ((n &&& q.toNat : Nat) : Int) ∧ ((n &&& q.toNat : Nat) : Int) ≤ 255
    omega
  | or =>
    have := Nat.or_lt_two_pow hn hq
    change 0 ≤ ((n ||| q.toNat : Nat) : Int) ∧ ((n ||| q.toNat : Nat) : Int) ≤ 255
    omega
  | xor =>
    have := Nat.xor_lt_two_pow hn hq
    change 0 ≤ ((n ^^^ q.toNat : Nat) : Int) ∧ ((n ^^^ q.toNat : Nat) : Int) ≤ 255
    omega

theorem isOk_zeroBlock {n : Int} (hn : 0 ≤ n) (hn' : n ≤ 255) : (zeroBlock n).isOk = true := by
  have hfits : Index.fits n = true := by
    unfold Index.fits
    rw [decide_eq_true_iff]
    omega
  unfold zeroBlock
  rw [hfits, if_neg (by decide), if_neg (by omega)]
  rfl

end Operation

namespace Situation

variable {s : Situation} {i : Int}

theorem isOk_operatorCode (hs : s.cell = .int i) (hi : 0 ≤ i) :
    s.operatorCode.isOk = true := by
  unfold operatorCode
  rw [ofNumber_eq hs]
  split
  · rename_i hlt
    have hlen : operatorCodes.length = 8 := rfl
    obtain ⟨code, hcode⟩ : ∃ code, Index.get operatorCodes i = .ok code :=
      Index.exists_get (by omega) (by omega)
    rw [hcode]
    rfl
  · rfl

theorem isOk_quotient (hs : s.cell = .int i) (hi : 0 ≤ i) (hi' : i ≤ 255) (q : UInt8) :
    (s.quotient q).isOk = true := by
  unfold quotient
  split
  · rfl
  · rw [ofNumber_eq hs]
    obtain ⟨r, hr⟩ := Option.isSome_iff_exists.1 (Rounding.isSome_divide? hi hi' q.toNat)
    rw [hr]
    rfl

theorem isOk_combined (hs : s.cell = .int i) (hi : 0 ≤ i) (hi' : i ≤ 255) (op : Bitwise)
    (q : UInt8) : (s.combined op q).isOk = true := by
  obtain ⟨hge, hle⟩ := bitwise_isByte op hi hi' q
  rw [combined, ofNumber_eq hs, isOk_map]
  exact isOk_zeroBlock hge hle

end Situation

/-- When the operation of a mode fails on a tape of bytes. -/
def Mode.Fails (m : Mode) (s : Situation) : Prop :=
  match m with
  | .consoleDecimalRead => s.lines.console.Fails Text.IsNumber
  | .consoleAsciiRead => s.lines.console.Fails Text.IsCharacter
  | .modemAsciiRead => s.lines.modem.Fails Text.IsDigitCharacter
  | .executeTask => Task.Fails s.cell s.buffer
  | _ => False

open Situation

/-- **When an operation fails.**  On a byte, only reads and tasks fail. -/
theorem Mode.effect_fails_iff (m : Mode) {s : Situation} (hcell : s.cell.IsByte) :
    (m.effect s).Fails ↔ m.Fails s := by
  obtain ⟨i, hs, hi, hi'⟩ := hcell.exists_int
  cases m with
  | consoleDecimalRead =>
    refine read_fails_iff fun t => ?_
    rw [isOk_map]
    exact isOk_numberOf t
  | consoleAsciiRead =>
    refine read_fails_iff fun t => ?_
    rw [← isOk_codeOf]
    cases codeOf t <;> rfl
  | modemAsciiRead =>
    refine read_fails_iff fun t => ?_
    have hcode := isOk_codeOf t
    unfold Text.IsDigitCharacter
    rw [← Text.IsCharacter, ← hcode]
    cases codeOf t with
    | error f => simp
    | ok n => cases Text.isDigits t.toList <;> simp
  | executeTask => exact s.task_fails_iff
  | consoleDecimalWrite => exact iff_of_false (write_not_fails _ _) id
  | consoleAsciiWrite | modemAsciiWrite =>
    refine iff_of_false ?_ id
    rw [effect, hs, characterOf_of_isByte hi hi']
    exact write_not_fails _ _
  | bufferProgram | clearBuffer | dequeueFirst | not | getPointer | getPosition =>
    exact iff_of_false (not_fails_of_fault_eq_none rfl) id
  | enqueue =>
    refine iff_of_false (not_fails_of_fault_eq_none ?_) id
    simp only [effect, Situation.enqueue, hs]
    rw [if_pos (by omega)]
    rfl
  | dequeueLast =>
    refine iff_of_false (not_fails_of_fault_eq_none ?_) id
    simp only [effect, takeLast]
    split <;> rfl
  | toLowerCase | toUpperCase | toDecimal =>
    refine iff_of_false (keep_not_fails ?_) id
    rw [shifted, ofNumber_eq hs]
    rfl
  | toOperator => exact iff_of_false (keep_not_fails (isOk_operatorCode hs hi)) id
  | add | sub | mul =>
    refine iff_of_false (take_not_fails fun q => ?_) id
    rw [ofNumber_eq hs]
    rfl
  | div => exact iff_of_false (take_not_fails (isOk_quotient hs hi hi')) id
  | and | or | xor => exact iff_of_false (take_not_fails (isOk_combined hs hi hi' _)) id
  | jumpLeft | jumpRight =>
    refine iff_of_false (not_fails_of_fault_eq_none ?_) id
    simp only [effect, Situation.jump, hs]
    rfl

namespace Mode

theorem ofCell?_eq_some_iff {c : Cell} {m : Mode} : ofCell? c = some m ↔ c = .int m.code := by
  constructor
  · intro h
    unfold ofCell? at h
    split at h
    · rename_i n
      have hall : ∀ k < 28, (all[k]?).map code = some k := by decide
      have hcode := hall n (List.getElem?_eq_some_iff.1 h).1
      rw [h] at hcode
      rw [Option.some.inj hcode]
      rfl
    · cases h
  · rintro rfl
    exact ofCell?_code m

theorem ofCell?_eq_none_iff {c : Cell} :
    ofCell? c = none ↔ ∀ n : Nat, n ≤ 27 → c ≠ .int n := by
  constructor
  · rintro h n hn rfl
    have hall : ∀ k ≤ 27, (all[k]?).isSome = true := by decide
    have hsome := hall n hn
    rw [show all[n]? = none from h] at hsome
    cases hsome
  · intro h
    cases hm : ofCell? c with
    | none => rfl
    | some m =>
      have hcode : m.code ≤ 27 := by cases m <;> decide
      exact absurd (ofCell?_eq_some_iff.1 hm) (h m.code hcode)

end Mode

namespace World

variable {w : World} {c : Cell}

theorem operationFails_of_ofCell?_eq_none (hm : Mode.ofCell? w.machine.mode = none) :
    w.OperationFails :=
  .inl (Mode.ofCell?_eq_none_iff.1 hm)

/-- Of the five ways to fail, only the one of the mode at hand is left. -/
theorem operationFails_iff {m : Mode} (hc : w.machine.cell = .ok c)
    (hm : Mode.ofCell? w.machine.mode = some m) : w.OperationFails ↔ m.Fails (w.situation c) := by
  have hnone : ¬ ∀ n : Nat, n ≤ 27 → w.machine.mode ≠ .int n := by
    rw [← Mode.ofCell?_eq_none_iff, hm]
    rintro ⟨⟩
  have hcode : ∀ x : Mode, w.machine.mode = .int x.code ↔ m = x := by
    intro x
    rw [← Mode.ofCell?_eq_some_iff, hm, Option.some_inj]
  have h1 : w.machine.mode = .int 1 ↔ m = .consoleDecimalRead := hcode .consoleDecimalRead
  have h3 : w.machine.mode = .int 3 ↔ m = .consoleAsciiRead := hcode .consoleAsciiRead
  have h5 : w.machine.mode = .int 5 ↔ m = .modemAsciiRead := hcode .modemAsciiRead
  have h7 : w.machine.mode = .int 7 ↔ m = .executeTask := hcode .executeTask
  have hcell : w.machine.cell.toOption = some c := by
    rw [hc]
    rfl
  rw [OperationFails, h1, h3, h5, h7, hcell]
  cases m <;> simp [hnone, Mode.Fails, situation]

end World

/-! ### Operators and steps -/

namespace Operator

variable {w : World} {c : Cell}

theorem skip_fails_iff (o : Operator) :
    (o.skip w).1.isOk = false ↔ o = .endLoop ∧ w.machine.loops = [] := by
  cases o with
  | endLoop =>
    cases hl : w.machine.loops <;> simp [skip, hl]
  | _ => simp [skip]

theorem operate_fails_iff (hc : w.machine.cell = .ok c) (hbyte : c.IsByte) :
    (work .operate w c).1.isOk = false ↔ w.OperationFails := by
  cases hm : Mode.ofCell? w.machine.mode with
  | none =>
    simp only [work, hm, isOk_error, true_iff]
    exact World.operationFails_of_ofCell?_eq_none hm
  | some m =>
    rw [World.operationFails_iff hc hm, ← m.effect_fails_iff (s := w.situation c) hbyte]
    simp only [work, hm, Effect.Fails, Effect.result]
    cases (m.effect (w.situation c)).fault <;> simp [Except.map]

theorem work_fails_iff (o : Operator) (hc : w.machine.cell = .ok c) (hbyte : c.IsByte) :
    (o.work w c).1.isOk = false ↔
      o = .endLoop ∧ w.machine.loops = [] ∨ o = .operate ∧ w.OperationFails := by
  cases o with
  | operate =>
    rw [operate_fails_iff hc hbyte]
    simp
  | endLoop =>
    cases hl : w.machine.loops <;> simp [work, hl]
  | increment | decrement =>
    -- A block could not be counted; a byte can.
    obtain ⟨i, rfl, -, -⟩ := hbyte.exists_int
    simp only [work]
    split <;> simp
  | advance | retreat | beginLoop =>
    simp only [work]
    split <;> simp
  | setMode => simp [work]

theorem act_fails_iff (o : Operator) (hc : w.machine.cell = .ok c) (hbyte : c.IsByte) :
    (o.act w c).1.isOk = false ↔
      o = .endLoop ∧ w.machine.loops = [] ∨
      o = .operate ∧ w.machine.deadDepth = 0 ∧ w.OperationFails := by
  cases hd : w.machine.isDead with
  | true =>
    have hdepth : w.machine.deadDepth ≠ 0 := by simpa [State.isDead] using hd
    rw [act_of_dead hd, skip_fails_iff]
    simp [hdepth]
  | false =>
    have hdepth : w.machine.deadDepth = 0 := by simpa [State.isDead] using hd
    rw [act_of_live hd, work_fails_iff o hc hbyte]
    simp [hdepth]

theorem mem_all (o : Operator) : o ∈ all := by
  cases o <;> decide

theorem symbol_inj {o p : Operator} : o.symbol = p.symbol ↔ o = p := by
  constructor
  · intro h
    have hof := congrArg ofSymbol? h
    rwa [ofSymbol?_symbol, ofSymbol?_symbol, Option.some_inj] at hof
  · rintro rfl
    rfl

end Operator

namespace Machine

variable {m : Machine} {ch : Char}

theorem character?_of_get (h : Index.get m.program m.position = .ok ch) :
    m.character? = some ch := by
  rw [character?, h]
  rfl

end Machine

/-- There is a current cell unless the pointer stands behind the tape. -/
theorem State.isOk_cell_iff {s : State} (hlen : s.cells.length = tapeLength)
    (hge : 0 ≤ s.pointer) (hle : s.pointer ≤ tapeLength) :
    s.cell.isOk = true ↔ s.pointer ≠ tapeLength := by
  constructor
  · intro hok
    cases hc : s.cell with
    | ok c =>
      have hlt := (Index.bounds_of_get (cell_eq_ok_iff.1 hc)).2
      omega
    | error f =>
      rw [hc] at hok
      cases hok
  · intro hne
    obtain ⟨c, hget⟩ : ∃ c, Index.get s.cells s.pointer = .ok c :=
      Index.exists_get (by omega) (by omega)
    rw [cell_eq_ok_iff.2 hget]
    rfl

namespace World

variable {w : World}

theorem fails_of_unknown {ch : Char} (hch : w.machine.character? = some ch)
    (ho : Operator.ofSymbol? ch = none) : w.Fails := by
  refine .inl fun o _ hso => ?_
  rw [hch] at hso
  rw [Option.some.inj hso, Operator.ofSymbol?_symbol] at ho
  cases ho

/-- At an operator, three ways to fail are left. -/
theorem fails_iff {o : Operator} (ho : w.machine.character? = some o.symbol) :
    w.Fails ↔ w.machine.pointer = State.tapeLength ∨
      o = .endLoop ∧ w.machine.loops = [] ∨
      o = .operate ∧ w.machine.deadDepth = 0 ∧ w.OperationFails := by
  have hknown : ¬ ∀ x ∈ Operator.all, some o.symbol ≠ some (Operator.symbol x) :=
    fun h => h o o.mem_all rfl
  have hclose : o.symbol = ']' ↔ o = .endLoop :=
    Operator.symbol_inj (p := .endLoop)
  have hoperate : o.symbol = '?' ↔ o = .operate :=
    Operator.symbol_inj (p := .operate)
  rw [Fails, ho, Option.some_inj, Option.some_inj, hclose, hoperate]
  simp only [hknown, false_or]

end World

namespace Exec

variable {w : World}

theorem isOk_advance_of_unknown {ch : Char} (hi : w.machine.instruction = .ok ch)
    (ho : Operator.ofSymbol? ch = none) : (advance.on w).1.isOk = false := by
  rw [on_advance, World.step, hi]
  simp only [ho]
  rfl

theorem isOk_advance_of_noCell {o : Operator} {f : Fault}
    (hi : w.machine.instruction = .ok o.symbol) (hc : w.machine.cell = .error f) :
    (advance.on w).1.isOk = false := by
  rw [on_advance, World.step, hi]
  simp only [Operator.ofSymbol?_symbol, hc]
  rfl

theorem isOk_advance {o : Operator} {c : Cell} (hi : w.machine.instruction = .ok o.symbol)
    (hc : w.machine.cell = .ok c) :
    (advance.on w).1.isOk = (o.act (w.started o c) c).1.isOk := by
  rw [on_advance, World.step, hi]
  simp only [Operator.ofSymbol?_symbol, hc]
  rcases o.act (w.started o c) c with ⟨f | why, v⟩ <;> rfl

/-- **When a step fails.**  On a tape of bytes, with the pointer on the tape or just behind it and
the position in the program, counted from either end, a step ends in a fault exactly if the
instruction is no operator, the pointer stands behind the tape, a loop is closed that was not
opened, or the operation of the mode fails. -/
theorem advance_fails_iff (w : World) (hlen : w.machine.cells.length = State.tapeLength)
    (hbytes : ∀ c ∈ w.machine.cells, c.IsByte) (hge : 0 ≤ w.machine.pointer)
    (hle : w.machine.pointer ≤ State.tapeLength)
    (hfrom : -w.machine.program.length ≤ w.machine.position)
    (hto : w.machine.position < w.machine.program.length) :
    (advance.on w).1.isOk = false ↔ w.Fails := by
  obtain ⟨ch, hget⟩ := Index.exists_get hfrom hto
  have hi := Machine.instruction_of_get hget
  have hch := Machine.character?_of_get hget
  have hon := State.isOk_cell_iff hlen hge hle
  cases ho : Operator.ofSymbol? ch with
  | none => exact iff_of_true (isOk_advance_of_unknown hi ho) (World.fails_of_unknown hch ho)
  | some o =>
    obtain rfl := Operator.symbol_of_ofSymbol? ho
    rw [World.fails_iff hch]
    cases hc : w.machine.cell with
    | error f =>
      have hp : w.machine.pointer = State.tapeLength := by simpa [hc] using hon
      exact iff_of_true (isOk_advance_of_noCell hi hc) (.inl hp)
    | ok c =>
      have hp : w.machine.pointer ≠ State.tapeLength := by simpa [hc] using hon
      have hact := o.act_fails_iff (w := w.started o c) hc (State.Bytes.cell hbytes hc)
      rw [isOk_advance hi hc, hact]
      simp only [hp, false_or]
      exact Iff.rfl

end Exec

/-- A machine that is about to execute the task of the given code on the given buffer; its position
counts from the end of the program. -/
def World.tasking (code : Int) (buffer : List UInt8) : World where
  machine := { State.initial with
    cells := List.replicate 255 Cell.zero ++ [.int code]
    pointer := 255
    mode := .int 7
    buffer := buffer
    position := -1
    program := ['>', '?']
    frames := #[] }

/-- The task of the code 8 fails on an empty buffer and takes a letter. -/
theorem Exec.advance_fails_iff_tasking :
    ((advance.on (.tasking 8 [])).1.isOk = false ∧ (World.tasking 8 []).Fails) ∧
      (advance.on (.tasking 8 [65])).1.isOk = true ∧ ¬ (World.tasking 8 [65]).Fails := by
  have hempty : (World.tasking 8 []).Fails := by decide +kernel
  have hletter : ¬ (World.tasking 8 [65]).Fails := by decide +kernel
  have hfails := advance_fails_iff (.tasking 8 []) (by decide +kernel) (by decide +kernel)
    (by decide) (by decide) (by decide) (by decide)
  have hworks := advance_fails_iff (.tasking 8 [65]) (by decide +kernel) (by decide +kernel)
    (by decide) (by decide) (by decide) (by decide)
  rw [← Bool.not_eq_false, hworks]
  exact ⟨⟨hfails.2 hempty, hempty⟩, hletter, hletter⟩

end TapeMachine
