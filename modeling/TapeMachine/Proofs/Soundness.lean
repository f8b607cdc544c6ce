import TapeMachine.Machine.Run
import TapeMachine.Proofs.Confinement
import Mathlib.Tactic.SplitIfs

/-!
# Sound machines

A machine is *sound* when its tape has its full length, its pointer stands on the tape or just
behind it, its cells and its mode are numbers or blocks of zeros, at most the open loops are
skipped, and every open loop was opened by a bracket of the program.  A machine is sound before its
first step, and each attempt at a step keeps it so, whether it works or ends in a fault and whatever
it jumps to (`World.attempts_sound`).

A cell is stored only by an operator that counts or by the operation of a mode, and these store
numbers and blocks of zeros (`Mode.effect_stores_plain`).  The position plays no part: a loop is
opened where an instruction was fetched, and that position addresses the program from either end.
-/

namespace TapeMachine

/-- The cell holds a number, or a block of zeros. -/
def Cell.IsPlain : Cell → Prop
  | .int _ => True
  | .block bs => ∀ b ∈ bs, b = 0

instance : DecidablePred Cell.IsPlain
  | .int _ => isTrue trivial
  | .block bs => inferInstanceAs (Decidable (∀ b ∈ bs, b = 0))

theorem Cell.zeros_isPlain (n : Nat) : (Cell.zeros n).IsPlain :=
  fun _ hb => (List.mem_replicate.1 hb).2

namespace State

theorem length_put (s : State) (c : Cell) : (s.put c).cells.length = s.cells.length := by
  unfold put
  split
  · rename_i hs
    exact Index.length_of_set hs
  · rfl

theorem mem_put {s : State} {c d : Cell} (h : d ∈ (s.put c).cells) : d ∈ s.cells ∨ d = c := by
  unfold put at h
  split at h
  · rename_i hs
    exact Index.mem_of_mem_set hs h
  · exact .inl h

/-- What holds of the state of a machine with the given program at every moment of every run. -/
structure Sound (program : List Char) (s : State) : Prop where
  /-- The tape has its full length. -/
  length_cells : s.cells.length = tapeLength
  /-- The pointer does not stand before the tape. -/
  pointer_nonneg : 0 ≤ s.pointer
  /-- The pointer stands at most one cell behind the tape. -/
  pointer_le : s.pointer ≤ tapeLength
  /-- Cells are numbers or blocks of zeros. -/
  cells_plain : ∀ c ∈ s.cells, c.IsPlain
  /-- So is the mode. -/
  mode_plain : s.mode.IsPlain
  /-- Loops are skipped or not. -/
  dead_nonneg : 0 ≤ s.deadDepth
  /-- Only open loops are skipped. -/
  dead_le : s.deadDepth ≤ s.loops.length
  /-- Loops are opened at opening brackets of the program. -/
  loops_open : ∀ p ∈ s.loops, -program.length ≤ p ∧ p < program.length ∧
    Index.get program p = .ok '['

theorem initial_sound (program : List Char) : initial.Sound program where
  length_cells := List.length_replicate
  pointer_nonneg := Int.le_refl _
  pointer_le := by decide
  cells_plain := by
    intro c hc
    rw [(List.mem_replicate.1 hc).2]
    trivial
  mode_plain := trivial
  dead_nonneg := Int.le_refl _
  dead_le := Int.le_refl _
  loops_open := by intro p hp; cases hp

end State

/-! ### What is stored -/

namespace Effect

/-- What is stored, if anything is, satisfies `P`. -/
def Stores (P : Cell → Prop) (e : Effect) : Prop := ∀ c, e.stored = some c → P c

variable {P : Cell → Prop}

theorem stores_of_stored_eq_none {e : Effect} (h : e.stored = none) : e.Stores P := by
  intro c hc
  rw [h] at hc
  cases hc

theorem ending_stores {e : Effect} {r : Except Fault (Option Cell)} (he : e.stored = none)
    (hr : ∀ c, r = .ok (some c) → P c) : (e.ending r).Stores P := by
  cases r with
  | ok stored => exact fun c hc => hr c (congrArg Except.ok hc)
  | error f => exact stores_of_stored_eq_none he

end Effect

open Effect

namespace Situation

variable {P : Cell → Prop} (s : Situation)

theorem stored_write (ch : Channel) (x : Except Fault Writing) :
    (s.write ch x).stored = none := by
  unfold write
  (repeat' split) <;> rfl

theorem stored_enqueue : s.enqueue.stored = none := by
  unfold enqueue
  (repeat' split) <;> rfl

theorem stored_jump (landing : Int → Int) : (s.jump landing).stored = none := by
  unfold jump
  split <;> rfl

theorem stored_task : s.task.stored = none := by
  unfold task
  split
  · rfl
  · rename_i t _
    cases t <;> simp only [Task.effect] <;> (repeat' split) <;> rfl

theorem read_stores {ch : Channel} {nothing : Fault} {value : String → Except Fault Cell}
    (hv : ∀ t c, value t = .ok c → P c) : (s.read ch nothing value).Stores P := by
  unfold read
  split
  · exact stores_of_stored_eq_none rfl
  · rename_i reply _ _
    cases reply with
    | text t =>
      refine ending_stores rfl fun c hc => hv t c ?_
      cases ht : value t <;> rw [ht] at hc <;> cases hc
      rfl
    | nothing => exact stores_of_stored_eq_none rfl
    | failure reason => exact stores_of_stored_eq_none rfl

theorem take_stores {value : UInt8 → Except Fault (Option Cell)}
    (hv : ∀ q c, value q = .ok (some c) → P c) : (s.take value).Stores P :=
  ending_stores rfl (hv _)

theorem takeLast_stores (hb : ∀ b : UInt8, P (.int b.toNat)) : s.takeLast.Stores P := by
  unfold takeLast
  split
  · rintro c ⟨⟩
    exact hb _
  · rintro c ⟨⟩
    exact hb 0

variable {s}

theorem of_ofNumber {block : Fault} {value : Int → Except Fault (Option Cell)} {c : Cell}
    (h : s.ofNumber block value = .ok (some c)) :
    ∃ i, s.cell = .int i ∧ value i = .ok (some c) := by
  unfold ofNumber at h
  split at h
  · exact ⟨_, ‹_›, h⟩
  · cases h

theorem of_shifted {bound offset : Int} {c : Cell} (h : s.shifted bound offset = .ok (some c)) :
    ∃ i, s.cell = .int i ∧ i < bound ∧ c = .int (i + offset) := by
  obtain ⟨i, hi, hv⟩ := of_ofNumber h
  split_ifs at hv with hb <;> cases hv
  exact ⟨i, hi, hb, rfl⟩

theorem of_operatorCode {c : Cell} (h : s.operatorCode = .ok (some c)) :
    ∃ i code, s.cell = .int i ∧ Index.get Operation.operatorCodes i = .ok code ∧
      c = .int code := by
  obtain ⟨i, hi, hv⟩ := of_ofNumber h
  split_ifs at hv
  · cases hc : Index.get Operation.operatorCodes i <;> rw [hc] at hv <;> cases hv
    exact ⟨i, _, hi, hc, rfl⟩
  · cases hv

theorem of_quotient {q : UInt8} {c : Cell} (h : s.quotient q = .ok (some c)) :
    ∃ i r, s.cell = .int i ∧ Rounding.divide? i q.toNat = some r ∧ c = .int (min r 1) := by
  unfold quotient at h
  split_ifs at h
  · cases h
  · obtain ⟨i, hi, hv⟩ := of_ofNumber h
    cases hr : Rounding.divide? i q.toNat <;> rw [hr] at hv <;> cases hv
    exact ⟨i, _, hi, hr, rfl⟩

theorem of_combined {op : Bitwise} {q : UInt8} {c : Cell} (h : s.combined op q = .ok (some c)) :
    ∃ n, c = Cell.zeros n := by
  obtain ⟨i, -, hv⟩ := of_ofNumber h
  unfold Operation.zeroBlock at hv
  split_ifs at hv <;> cases hv
  exact ⟨_, rfl⟩

end Situation

open Situation

/-- What the operation of a mode stores is a number or a block of zeros. -/
theorem Mode.effect_stores_plain (m : Mode) (s : Situation) :
    (m.effect s).Stores Cell.IsPlain := by
  cases m with
  | consoleDecimalWrite | consoleAsciiWrite | modemAsciiWrite =>
    exact stores_of_stored_eq_none (s.stored_write _ _)
  | consoleDecimalRead =>
    refine s.read_stores fun t c hc => ?_
    cases hn : Operation.numberOf t <;> rw [hn] at hc <;> cases hc
    trivial
  | consoleAsciiRead =>
    refine s.read_stores fun t c hc => ?_
    cases hn : Operation.codeOf t <;> rw [hn] at hc <;> cases hc
    trivial
  | modemAsciiRead =>
    refine s.read_stores fun t c hc => ?_
    split at hc
    · split_ifs at hc
      cases hc
      trivial
    · cases hc
  | bufferProgram | clearBuffer => exact stores_of_stored_eq_none rfl
  | executeTask => exact stores_of_stored_eq_none s.stored_task
  | enqueue => exact stores_of_stored_eq_none s.stored_enqueue
  | dequeueLast => exact s.takeLast_stores fun _ => trivial
  | dequeueFirst =>
    refine s.take_stores fun q c hc => ?_
    cases hc
    trivial
  | add | sub | mul =>
    refine s.take_stores fun q c hc => ?_
    obtain ⟨i, -, hv⟩ := of_ofNumber hc
    cases hv
    trivial
  | div =>
    refine s.take_stores fun q c hc => ?_
    obtain ⟨i, r, -, -, rfl⟩ := of_quotient hc
    trivial
  | and | or | xor =>
    refine s.take_stores fun q c hc => ?_
    obtain ⟨n, rfl⟩ := of_combined hc
    exact Cell.zeros_isPlain n
  | toLowerCase | toUpperCase | toDecimal =>
    refine ending_stores rfl fun c hc => ?_
    obtain ⟨i, -, -, rfl⟩ := of_shifted hc
    trivial
  | toOperator =>
    refine ending_stores rfl fun c hc => ?_
    obtain ⟨i, code, -, -, rfl⟩ := of_operatorCode hc
    trivial
  | not | getPointer | getPosition =>
    refine ending_stores rfl fun c hc => ?_
    cases hc
    trivial
  | jumpLeft | jumpRight => exact stores_of_stored_eq_none (s.stored_jump _)

/-! ### Steps keep a machine sound -/

namespace State.Sound

variable {program : List Char} {s : State}

theorem put (hs : s.Sound program) {c : Cell} (hc : c.IsPlain) :
    { s with cells := (s.put c).cells }.Sound program :=
  { hs with
    length_cells := (s.length_put c).trans hs.length_cells
    cells_plain := by
      intro d hd
      obtain hd | rfl := mem_put hd
      · exact hs.cells_plain d hd
      · exact hc }

theorem openLoop (hs : s.Sound program) (hp : Index.get program s.position = .ok '[') :
    { s with loops := s.position :: s.loops }.Sound program :=
  { hs with
    dead_le := by
      have := hs.dead_le
      simp only [List.length_cons]
      omega
    loops_open := by
      intro p hmem
      obtain rfl | hmem := List.mem_cons.1 hmem
      · exact ⟨(Index.bounds_of_get hp).1, (Index.bounds_of_get hp).2, hp⟩
      · exact hs.loops_open p hmem }

theorem openDeadLoop (hs : s.Sound program) (hp : Index.get program s.position = .ok '[') :
    { s with loops := s.position :: s.loops, deadDepth := s.deadDepth + 1 }.Sound program :=
  { hs.openLoop hp with
    dead_nonneg := by
      have := hs.dead_nonneg
      dsimp only
      omega
    dead_le := by
      have := hs.dead_le
      simp only [List.length_cons]
      omega }

theorem closeLoop (hs : s.Sound program) {p d : Int} {ps : List Int} (hl : s.loops = p :: ps)
    (hd : 0 ≤ d) (hle : d ≤ ps.length) :
    { s with loops := ps, deadDepth := d }.Sound program :=
  { hs with
    dead_nonneg := hd
    dead_le := hle
    loops_open := fun q hq => hs.loops_open q (by rw [hl]; exact List.mem_cons_of_mem p hq) }

end State.Sound

theorem Operator.skip_sound {o : Operator} {w v : World} {why : Option Idle}
    (hs : w.machine.Sound w.machine.program)
    (hp : Index.get w.machine.program w.machine.position = .ok o.symbol)
    (hd : w.machine.isDead = true) (ha : o.skip w = (.ok why, v)) :
    v.machine.Sound w.machine.program := by
  cases o with
  | beginLoop =>
    cases ha
    exact hs.openDeadLoop hp
  | endLoop =>
    simp only [skip] at ha
    split at ha <;> cases ha
    rename_i p ps hl
    -- On a dead machine the loop that is closed is one of those that are skipped.
    have hge := hs.dead_nonneg
    have hle := hs.dead_le
    simp only [State.isDead, bne_iff_ne] at hd
    simp only [hl, List.length_cons] at hle
    exact hs.closeLoop hl (by omega) (by omega)
  | advance | retreat | increment | decrement | setMode | operate =>
    cases ha
    exact hs

theorem World.apply_sound {w : World} {e : Effect} {program : List Char}
    (hs : w.machine.Sound program) (he : e.Stores Cell.IsPlain) :
    (w.apply e).machine.Sound program := by
  cases hst : e.stored with
  | none =>
    simp only [World.apply, hst]
    exact { hs with }
  | some c =>
    simp only [World.apply, hst]
    exact { hs.put (he c hst) with }

theorem Operator.work_sound {o : Operator} {w v : World} {c : Cell} {why : Option Idle}
    (hs : w.machine.Sound w.machine.program)
    (hp : Index.get w.machine.program w.machine.position = .ok o.symbol)
    (hd : w.machine.isDead = false) (hc : w.machine.cell = .ok c)
    (ha : o.work w c = (.ok why, v)) :
    v.machine.Sound w.machine.program := by
  cases o with
  | advance =>
    simp only [work] at ha
    split_ifs at ha with hx <;> cases ha
    · exact hs
    · -- The pointer did not stand behind the last cell, so it is at most there now.
      have hlen := hs.length_cells
      have hle := hs.pointer_le
      have hge := hs.pointer_nonneg
      exact
        { hs with
          pointer_nonneg := by simp only [World.withState]; omega
          pointer_le := by simp only [World.withState]; omega }
  | retreat =>
    simp only [work] at ha
    split_ifs at ha with hx <;> cases ha
    · exact hs
    · have hle := hs.pointer_le
      have hge := hs.pointer_nonneg
      exact
        { hs with
          pointer_nonneg := by simp only [World.withState]; omega
          pointer_le := by simp only [World.withState]; omega }
  | increment | decrement =>
    simp only [work] at ha
    split at ha
    · cases ha
    · split_ifs at ha <;> cases ha
      · exact hs
      · exact hs.put trivial
  | beginLoop =>
    simp only [work] at ha
    split_ifs at ha <;> cases ha
    · exact hs.openDeadLoop hp
    · exact hs.openLoop hp
  | endLoop =>
    simp only [work] at ha
    split at ha <;> cases ha
    rename_i p ps hl
    -- Nothing is skipped, so the number of loops that are left is no bound to be kept.
    simp only [State.isDead, bne_eq_false_iff_eq] at hd
    exact { hs.closeLoop hl (Int.le_refl 0) (Int.natCast_nonneg _) with
      dead_nonneg := hs.dead_nonneg
      dead_le := by simp [World.withState, hd] }
  | setMode =>
    cases ha
    have hmem := Index.mem_of_get (State.cell_eq_ok_iff.1 hc)
    exact { hs with mode_plain := hs.cells_plain c hmem }
  | operate =>
    simp only [work] at ha
    split at ha
    · cases ha
    · rename_i m _
      obtain ⟨-, rfl⟩ := Prod.ext_iff.1 ha
      exact World.apply_sound (w := w.noted (.operating m)) hs (m.effect_stores_plain _)

theorem Operator.act_sound {o : Operator} {w v : World} {c : Cell} {why : Option Idle}
    (hs : w.machine.Sound w.machine.program)
    (hp : Index.get w.machine.program w.machine.position = .ok o.symbol)
    (hc : w.machine.cell = .ok c) (ha : o.act w c = (.ok why, v)) :
    v.machine.Sound w.machine.program := by
  unfold act at ha
  split at ha
  · rename_i hd
    exact skip_sound hs hp hd ha
  · rename_i hd
    exact work_sound hs hp (Bool.eq_false_iff.2 hd) hc ha

namespace World

theorem moveOn_sound {s : State} {program : List Char} (hs : s.Sound program) :
    (Exec.moveOn s).Sound program := by
  unfold Exec.moveOn
  split <;> exact { hs with }

/-- A target is taken, or it is zero. -/
theorem moveOn_target (s : State) :
    (Exec.moveOn s).target = none ∨ (Exec.moveOn s).target = some 0 := by
  unfold Exec.moveOn
  split
  · exact .inr ‹_›
  · exact .inl ‹_›
  · exact .inl rfl

theorem sound_of_ok {w w' : World} (hs : w.machine.Sound w.machine.program)
    (h : Exec.advance.on w = (.ok (), w')) : w'.machine.Sound w.machine.program := by
  obtain ⟨o, c, why, v, hi, hc, ha, rfl⟩ := Exec.advance_eq_ok_iff.1 h
  have hget := Machine.get_of_instruction_eq_ok hi
  exact moveOn_sound (Operator.act_sound (w := w.started o c) { hs with } hget hc ha)

/-- What holds of a machine that runs the given program, after `k` steps that worked. -/
structure Consistent (program : List Char) (k : Nat) (m : Machine) : Prop where
  program_eq : m.program = program
  sound : m.Sound program
  target_eq : m.target = none ∨ m.target = some 0
  size_frames : m.frames.size = k

theorem consistent_of_ok {w w' : World} {program : List Char} {k : Nat}
    (hw : Consistent program k w.machine) (h : Exec.advance.on w = (.ok (), w')) :
    Consistent program (k + 1) w'.machine := by
  obtain ⟨rfl, hs, ht, rfl⟩ := hw
  have hsound := sound_of_ok hs h
  obtain ⟨o, c, why, v, -, -, ha, rfl⟩ := Exec.advance_eq_ok_iff.1 h
  obtain ⟨hprog, hfr⟩ := Operator.program_frames_of_act ha
  exact
    { program_eq := hprog
      sound := hsound
      target_eq := moveOn_target _
      size_frames := by
        change (v.machine.frames.push _).size = _
        rw [Array.size_push, hfr]
        rfl }

theorem consistent_of_error {w w' : World} {program : List Char} {k : Nat} {f : Fault}
    (hw : Consistent program k w.machine) (h : Exec.advance.on w = (.error f, w')) :
    Consistent program k w'.machine := by
  obtain ⟨symbol, buffer, hm, -⟩ := Exec.machine_of_advance_eq_error h
  rw [hm]
  exact { hw with sound := { hw.sound with } }

theorem load_consistent (lines : Lines) (program : String) :
    Consistent program.toList 0 (load lines program).machine where
  program_eq := rfl
  sound := State.initial_sound _
  target_eq := .inl rfl
  size_frames := rfl

/-- `n` attempts at a step, each made where the one before left the machine, whether that worked or
ended in a fault: how many worked, and the world that is left. -/
def attempts : Nat → World → Nat × World
  | 0, w => (0, w)
  | n + 1, w =>
    match Exec.advance.on (attempts n w).2 with
    | (.ok _, w') => ((attempts n w).1 + 1, w')
    | (.error _, w') => ((attempts n w).1, w')

theorem consistent_attempts (lines : Lines) (program : String) (n : Nat) :
    Consistent program.toList ((load lines program).attempts n).1
      ((load lines program).attempts n).2.machine := by
  induction n with
  | zero => exact load_consistent lines program
  | succ n ih =>
    rw [attempts]
    split
    · exact consistent_of_ok ih ‹_›
    · exact consistent_of_error ih ‹_›

/-- **Every machine that can be reached is sound.**  After any number of attempts at a step of any
program, faults and jumps included, the machine still runs that program, its state is sound, its
buffer holds bytes, its target is none or zero, and it has left a frame for each attempt that
worked. -/
theorem attempts_sound (lines : Lines) (program : String) (n : Nat) :
    let m := ((load lines program).attempts n).2.machine
    m.program = program.toList ∧ m.Sound program.toList ∧ (∀ b ∈ m.buffer, b.toNat ≤ 255) ∧
      (m.target = none ∨ m.target = some 0) ∧
      m.frames.size = ((load lines program).attempts n).1 := by
  have h := consistent_attempts lines program n
  exact ⟨h.program_eq, h.sound, fun b _ => Nat.le_of_lt_succ b.toNat_lt, h.target_eq, h.size_frames⟩

end World

end TapeMachine
