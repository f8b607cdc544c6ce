import TapeMachine.Proofs.Soundness

/-!
# Cells that stay bytes

The tape begins with bytes, numbers from 0 to 255.  Counting up stops at 255 and counting down at 0,
but only because neither finds anything beyond; so it takes all operations together to keep the
cells bytes.  Five modes do not: the sum that `add` stores is at least 255 and may be more, the
bitwise operations store blocks, and `getPosition` stores a position of any size
(`Mode.breaksBytes`).  As long as no step carries one of these out, every cell is a byte, whatever
is read, taken from the buffer, converted or jumped to, and whether the steps work or not
(`World.attempts_bytes`).
-/

namespace TapeMachine

/-- The cell holds a number from 0 to 255. -/
def Cell.IsByte : Cell → Prop
  | .int i => 0 ≤ i ∧ i ≤ 255
  | .block _ => False

instance : DecidablePred Cell.IsByte
  | .int i => inferInstanceAs (Decidable (0 ≤ i ∧ i ≤ 255))
  | .block _ => isFalse id

namespace Cell

theorem IsByte.exists_int {c : Cell} (h : c.IsByte) : ∃ i, c = .int i ∧ 0 ≤ i ∧ i ≤ 255 := by
  cases c with
  | int i => exact ⟨i, rfl, h⟩
  | block bs => exact h.elim

theorem toByte_isByte (i : Int) : (Operation.toByte i).IsByte := by
  change 0 ≤ i % 256 ∧ i % 256 ≤ 255
  omega

theorem isByte_of_uint8 (b : UInt8) : (Cell.int b.toNat).IsByte := by
  have := b.toNat_lt
  change 0 ≤ (b.toNat : Int) ∧ (b.toNat : Int) ≤ 255
  omega

end Cell

/-! ### What the operations store -/

/-- The operation of the mode may store what is no byte. -/
def Mode.breaksBytes : Mode → Bool
  | .add | .and | .or | .xor | .getPosition => true
  | _ => false

example : (Mode.all.filter Mode.breaksBytes).map Mode.code = [16, 20, 21, 23, 25] := by decide

theorem Rounding.nonneg_of_divide? {a r : Int} {b : Nat} (ha : 0 ≤ a) (h : divide? a b = some r) :
    0 ≤ r := by
  unfold divide? at h
  dsimp only at h
  split_ifs at h with _ hneg
  · omega
  · cases h
    exact Int.natCast_nonneg _

namespace Situation

variable {s : Situation} {i : Int}

theorem ofNumber_eq (hs : s.cell = .int i) (block : Fault)
    (value : Int → Except Fault (Option Cell)) : s.ofNumber block value = value i := by
  unfold ofNumber
  rw [hs]

theorem isByte_of_shifted (hs : s.cell = .int i) (hi : 0 ≤ i) {bound offset : Int}
    (hoffset : 0 ≤ offset) (hsum : bound + offset ≤ 256) {c : Cell}
    (h : s.shifted bound offset = .ok (some c)) : c.IsByte := by
  obtain ⟨j, hj, hlt, rfl⟩ := of_shifted h
  rw [hs] at hj
  cases hj
  change 0 ≤ i + offset ∧ i + offset ≤ 255
  omega

theorem isByte_of_operatorCode {c : Cell} (h : s.operatorCode = .ok (some c)) : c.IsByte := by
  have hall : ∀ code ∈ Operation.operatorCodes, 0 ≤ code ∧ code ≤ 255 := by decide
  obtain ⟨j, code, -, hget, rfl⟩ := of_operatorCode h
  exact hall code (Index.mem_of_get hget)

theorem isByte_of_quotient (hs : s.cell = .int i) (hi : 0 ≤ i) {q : UInt8} {c : Cell}
    (h : s.quotient q = .ok (some c)) : c.IsByte := by
  obtain ⟨j, r, hj, hr, rfl⟩ := of_quotient h
  rw [hs] at hj
  cases hj
  have hge := Rounding.nonneg_of_divide? hi hr
  change 0 ≤ min r 1 ∧ min r 1 ≤ 255
  omega

end Situation

open Situation Effect

/-- On a tape of bytes, an operation stores a byte unless its mode is one of five. -/
theorem Mode.effect_stores_byte {m : Mode} (hm : m.breaksBytes = false) {s : Situation}
    (hcell : s.cell.IsByte) (hge : 0 ≤ s.pointer) (hle : s.pointer ≤ 255) :
    (m.effect s).Stores Cell.IsByte := by
  obtain ⟨i, hs, hi, hi'⟩ := hcell.exists_int
  cases m with
  | add | and | or | xor | getPosition => cases hm
  | consoleDecimalWrite | consoleAsciiWrite | modemAsciiWrite =>
    exact stores_of_stored_eq_none (s.stored_write _ _)
  | consoleDecimalRead =>
    refine s.read_stores fun t c hc => ?_
    cases hn : Operation.numberOf t <;> rw [hn] at hc <;> cases hc
    exact Cell.toByte_isByte _
  | consoleAsciiRead =>
    refine s.read_stores fun t c hc => ?_
    cases hn : Operation.codeOf t <;> rw [hn] at hc <;> cases hc
    exact Cell.toByte_isByte _
  | modemAsciiRead =>
    refine s.read_stores fun t c hc => ?_
    split at hc
    · split_ifs at hc
      cases hc
      exact Cell.toByte_isByte _
    · cases hc
  | bufferProgram | clearBuffer => exact stores_of_stored_eq_none rfl
  | executeTask => exact stores_of_stored_eq_none s.stored_task
  | enqueue => exact stores_of_stored_eq_none s.stored_enqueue
  | dequeueLast => exact s.takeLast_stores Cell.isByte_of_uint8
  | dequeueFirst =>
    refine s.take_stores fun q c hc => ?_
    cases hc
    exact Cell.isByte_of_uint8 q
  | toLowerCase | toUpperCase | toDecimal =>
    refine ending_stores rfl fun c hc => ?_
    exact isByte_of_shifted hs hi (by decide) (by decide) hc
  | toOperator => exact ending_stores rfl fun c hc => isByte_of_operatorCode hc
  | sub =>
    refine s.take_stores fun q c hc => ?_
    rw [ofNumber_eq hs] at hc
    cases hc
    change 0 ≤ min (i + q.toNat) 0 ∧ min (i + q.toNat) 0 ≤ 255
    omega
  | mul =>
    refine s.take_stores fun q c hc => ?_
    rw [ofNumber_eq hs] at hc
    cases hc
    have hprod : 0 ≤ i * q.toNat := Int.mul_nonneg hi (Int.natCast_nonneg _)
    change 0 ≤ min (i * q.toNat) 255 ∧ min (i * q.toNat) 255 ≤ 255
    omega
  | div => exact s.take_stores fun q c hc => isByte_of_quotient hs hi hc
  | not =>
    refine ending_stores rfl fun c hc => ?_
    cases hc
    change 0 ≤ (if s.cell.isTrue then (0 : Int) else 1) ∧ _ ≤ (255 : Int)
    split <;> decide
  | getPointer =>
    -- The pointer is a byte only because it stands on the tape.
    refine ending_stores rfl fun c hc => ?_
    cases hc
    exact ⟨hge, hle⟩
  | jumpLeft | jumpRight => exact stores_of_stored_eq_none (s.stored_jump _)

/-! ### Steps keep the cells bytes -/

namespace State

/-- All cells are bytes. -/
def Bytes (s : State) : Prop := ∀ c ∈ s.cells, c.IsByte

theorem initial_bytes : initial.Bytes := by
  intro c hc
  rw [(List.mem_replicate.1 hc).2]
  exact ⟨by decide, by decide⟩

theorem Bytes.put {s : State} (hs : s.Bytes) {c : Cell} (hc : c.IsByte) :
    { s with cells := (s.put c).cells }.Bytes := by
  intro d hd
  obtain hd | rfl := mem_put hd
  · exact hs d hd
  · exact hc

theorem Bytes.cell {s : State} (hs : s.Bytes) {c : Cell} (hc : s.cell = .ok c) : c.IsByte :=
  hs c (Index.mem_of_get (cell_eq_ok_iff.1 hc))

/-- The pointer stands on the tape where the current cell can be read. -/
theorem Sound.pointer_lt {s : State} {program : List Char} (hs : s.Sound program) {c : Cell}
    (hc : s.cell = .ok c) : s.pointer < tapeLength := by
  have hlt := (Index.bounds_of_get (cell_eq_ok_iff.1 hc)).2
  rw [hs.length_cells] at hlt
  exact hlt

end State

theorem World.apply_bytes {w : World} {e : Effect} (hw : w.machine.Bytes)
    (he : e.Stores Cell.IsByte) : (w.apply e).machine.Bytes := by
  cases hst : e.stored with
  | none =>
    simp only [World.apply, hst]
    exact hw
  | some c =>
    simp only [World.apply, hst]
    exact hw.put (he c hst)

namespace Operator

variable {o : Operator} {w v : World} {c : Cell} {why : Option Idle}

theorem skip_bytes (hw : w.machine.Bytes) (ha : o.skip w = (.ok why, v)) : v.machine.Bytes := by
  cases o with
  | endLoop =>
    simp only [skip] at ha
    split at ha <;> cases ha
    exact hw
  | _ =>
    cases ha
    exact hw

theorem work_bytes (hw : w.machine.Bytes) (hc : w.machine.cell = .ok c)
    (hge : 0 ≤ w.machine.pointer) (hle : w.machine.pointer ≤ 255)
    (hm : o = .operate → ∀ m, Mode.ofCell? w.machine.mode = some m → m.breaksBytes = false)
    (ha : o.work w c = (.ok why, v)) : v.machine.Bytes := by
  have hbyte := hw.cell hc
  cases o with
  | advance | retreat | beginLoop =>
    simp only [work] at ha
    split_ifs at ha <;> cases ha <;> exact hw
  | increment =>
    obtain ⟨i, rfl, hi, hi'⟩ := hbyte.exists_int
    simp only [work] at ha
    split_ifs at ha with hmax <;> cases ha
    · exact hw
    · -- The number is not 255 and at most 255, so there is room for one more.
      have hne : i ≠ 255 := hmax
      exact hw.put ⟨by omega, by omega⟩
  | decrement =>
    obtain ⟨i, rfl, hi, hi'⟩ := hbyte.exists_int
    simp only [work] at ha
    split_ifs at ha with hzero <;> cases ha
    · exact hw
    · exact hw.put ⟨by omega, by omega⟩
  | endLoop =>
    simp only [work] at ha
    split at ha <;> cases ha
    exact hw
  | setMode =>
    cases ha
    exact hw
  | operate =>
    simp only [work] at ha
    split at ha
    · cases ha
    · rename_i m hmode
      obtain ⟨-, rfl⟩ := Prod.ext_iff.1 ha
      exact World.apply_bytes (w := w.noted (.operating m)) hw
        (Mode.effect_stores_byte (hm rfl m hmode) hbyte hge hle)

end Operator

namespace World

variable {w w' : World} {program : List Char}

theorem bytes_of_ok (hs : w.machine.Sound program) (hw : w.machine.Bytes)
    (hop : ∀ m, w.machine.operation? = some m → m.breaksBytes = false)
    (h : Exec.advance.on w = (.ok (), w')) : w'.machine.Bytes := by
  obtain ⟨o, c, why, v, hi, hc, ha, rfl⟩ := Exec.advance_eq_ok_iff.1 h
  have hv : v.machine.Bytes := by
    cases hd : w.machine.isDead with
    | true =>
      rw [Operator.act_of_dead (w := w.started o c) hd] at ha
      exact Operator.skip_bytes (w := w.started o c) hw ha
    | false =>
      rw [Operator.act_of_live (w := w.started o c) hd] at ha
      have hlt := hs.pointer_lt hc
      refine Operator.work_bytes (w := w.started o c) hw hc hs.pointer_nonneg
        (Int.le_of_lt_add_one hlt) ?_ ha
      rintro rfl m hm
      exact hop m ((Machine.operation?_eq hd hi hc).trans hm)
  have hcells : (Exec.moveOn v.machine.toState).cells = v.machine.cells := by
    obtain ⟨p, t, hm⟩ := Exec.exists_moveOn_eq v.machine.toState
    rw [hm]
  intro d hd
  exact hv d (hcells ▸ hd)

theorem bytes_of_error {f : Fault} (hw : w.machine.Bytes)
    (h : Exec.advance.on w = (.error f, w')) : w'.machine.Bytes := by
  obtain ⟨symbol, buffer, hm, -⟩ := Exec.machine_of_advance_eq_error h
  rw [hm]
  exact hw

/-- **Only five modes break bytes.**  Whatever the program and the lines, as long as none of the
attempts at a step carries out one of the modes `add`, `and`, `or`, `xor` and `getPosition`, every
cell is a number from 0 to 255, also after attempts that ended in a fault. -/
theorem attempts_bytes (lines : Lines) (program : String) (n : Nat)
    (h : ∀ k < n, ((load lines program).attempts k).2.machine.operation?.any
      Mode.breaksBytes = false) :
    ∀ c ∈ ((load lines program).attempts n).2.machine.cells, c.IsByte := by
  induction n with
  | zero => exact State.initial_bytes
  | succ n ih =>
    have hn := ih fun k hk => h k (Nat.lt_succ_of_lt hk)
    have hlast := h n (Nat.lt_succ_self n)
    have hop : ∀ m, ((load lines program).attempts n).2.machine.operation? = some m →
        m.breaksBytes = false := by
      intro m hm
      rw [hm] at hlast
      exact hlast
    rw [attempts]
    split
    · exact bytes_of_ok (consistent_attempts lines program n).sound hn hop ‹_›
    · exact bytes_of_error hn ‹_›

/-- A number is read and cut to a byte; then a bracket is refused, twice. -/
theorem attempts_bytes_reading :
    let w := load { console := { input := some [.text "300"] } } "+=?]"
    (∀ k < 5, (w.attempts k).2.machine.operation?.any Mode.breaksBytes = false) ∧
      (w.attempts 5).1 = 3 ∧ (w.attempts 5).2.machine.cells[0]? = some (.int 44) ∧
      ∀ c ∈ (w.attempts 5).2.machine.cells, c.IsByte := by
  have h : ∀ k < 5, ((load { console := { input := some [.text "300"] } } "+=?]").attempts
      k).2.machine.operation?.any Mode.breaksBytes = false := by decide +kernel
  exact ⟨h, by decide +kernel, by decide +kernel, attempts_bytes _ _ 5 h⟩

end World

end TapeMachine
