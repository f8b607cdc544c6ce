import TapeMachine.Proofs.ByteCells
import TapeMachine.Proofs.LoopStack
import TapeMachine.Proofs.StepFault

/-!
# The end of the tape

The pointer is meant to stop at the last cell, but it is held only when it already stands behind the
tape.  There no operator gets as far as to be held: the current cell is read first.  So

* the pointer stands on the tape or just behind it;
* it gets there by a step forward from the last cell, which works and leaves a plain frame;
* from there no step works, and a step that has an operator to evaluate ends in the fault of a
  pointer that addresses no cell, which no other step ends in;
* no frame ever has the remark that the pointer was held.

`World.attempts_extent` says so of every machine that can be reached.
-/

namespace TapeMachine

open Exec

/-- The fault of a pointer that addresses no cell. -/
def Fault.isMissingCell : Fault → Bool
  | .noCell _ | .noStore _ => true
  | _ => false

theorem Fault.OfOperation.not_isMissingCell {f : Fault} (h : f.OfOperation) :
    f.isMissingCell = false := by
  cases f with
  | noCell cause | noStore cause => exact h.elim
  | _ => rfl

namespace Operator

/-- Where the pointer stands after an operator. -/
def pointerAfter (o : Operator) (s : State) : Int :=
  match o with
  | .advance => if s.isDead ∨ s.pointer = s.cells.length then s.pointer else s.pointer + 1
  | .retreat => if s.isDead ∨ s.pointer = 0 then s.pointer else s.pointer - 1
  | _ => s.pointer

variable {o : Operator} {w v : World} {c : Cell}

theorem pointer_act (o : Operator) (w : World) (c : Cell) :
    (o.act w c).2.machine.pointer = o.pointerAfter w.machine.toState := by
  by_cases hd : w.machine.isDead = true
  · rw [act_of_dead hd]
    cases o with
    | endLoop =>
      simp only [skip]
      split <;> rfl
    | advance | retreat => simp [skip, pointerAfter, hd]
    | _ => rfl
  · rw [act_of_live (Bool.eq_false_iff.2 hd)]
    cases o with
    | advance =>
      by_cases hp : w.machine.pointer = w.machine.cells.length <;>
        simp [work, pointerAfter, hd, hp, World.withState]
    | retreat =>
      by_cases hp : w.machine.pointer = 0 <;> simp [work, pointerAfter, hd, hp, World.withState]
    | increment | decrement =>
      simp only [work]
      split
      · rfl
      · split <;> rfl
    | beginLoop | endLoop | operate =>
      simp only [work]
      split <;> rfl
    | setMode => rfl

/-- The pointer gets behind the tape only by a step forward from the last cell. -/
theorem pointerAfter_eq_length_iff {s : State} (h : s.pointer < s.cells.length) :
    o.pointerAfter s = s.cells.length ↔
      s.pointer = s.cells.length - 1 ∧ s.isDead = false ∧ o = .advance := by
  cases o with
  | advance =>
    by_cases hd : s.isDead = true
    · simp only [pointerAfter, hd, true_or, ↓reduceIte]
      exact ⟨fun hp => by omega, fun hp => by cases hp.2.1⟩
    · have hgo : pointerAfter .advance s = s.pointer + 1 :=
        if_neg (not_or.2 ⟨hd, Int.ne_of_lt h⟩)
      rw [hgo]
      exact ⟨fun hp => ⟨by omega, Bool.eq_false_iff.2 hd, rfl⟩, fun hp => by omega⟩
  | retreat =>
    have hle : pointerAfter .retreat s ≤ s.pointer := by
      simp only [pointerAfter]
      split <;> omega
    exact ⟨fun hp => by omega, fun hp => by cases hp.2.2⟩
  | _ => exact ⟨fun hp => absurd hp (Int.ne_of_lt h), fun hp => by cases hp.2.2⟩

/-- An operator that acts has a current cell, so it does not end in the fault of a missing one. -/
theorem not_isMissingCell_of_act {f : Fault} (h : o.act w c = (.error f, v)) :
    f.isMissingCell = false := by
  unfold act at h
  split at h
  · cases o with
    | endLoop =>
      simp only [skip] at h
      split at h <;> cases h
      rfl
    | _ => cases h
  · cases o with
    | endLoop =>
      simp only [work] at h
      split at h <;> cases h
      rfl
    | operate =>
      simp only [work] at h
      split at h
      · cases h
        rfl
      · rename_i m _
        cases hf : (m.effect (w.situation c)).fault with
        | none => simp [Effect.result, hf, Except.map] at h
        | some g =>
          simp only [Effect.result, hf, Except.map, Prod.mk.injEq, Except.error.injEq] at h
          exact h.1 ▸ (Mode.effect_fault hf).not_isMissingCell
    | increment | decrement =>
      simp only [work] at h
      split at h
      · cases h
        rfl
      · split_ifs at h <;> cases h
    | advance | retreat | beginLoop =>
      simp only [work] at h
      split_ifs at h <;> cases h
    | setMode => cases h

/-- Only behind the tape is the pointer held. -/
theorem pointer_of_atExtent (h : o.act w c = (.ok (some .atExtent), v)) :
    w.machine.pointer = w.machine.cells.length := by
  unfold act at h
  split at h
  · cases o with
    | endLoop =>
      simp only [skip] at h
      split at h <;> cases h
    | _ => cases h
  · cases o with
    | advance =>
      simp only [work] at h
      split_ifs at h with hp
      · exact hp
      · cases h
    | operate =>
      simp only [work] at h
      split at h
      · cases h
      · cases hr : (Mode.effect _ (w.situation c)).result <;> rw [hr] at h <;> cases h
    | endLoop =>
      simp only [work] at h
      split at h <;> cases h
    | increment | decrement =>
      simp only [work] at h
      split at h
      · cases h
      · split_ifs at h <;> cases h
    | retreat | beginLoop =>
      simp only [work] at h
      split_ifs at h <;> cases h
    | setMode => cases h

end Operator

/-! ### Steps at the end of the tape -/

theorem Idle.eq_atExtent_of_remark {why : Idle} (h : why.remark = atExtent.remark) :
    why = atExtent := by
  revert h
  cases why <;> decide

/-- The state in which the pointer has gone forward. -/
def State.forward (s : State) : State :=
  { s with symbol := some ">", pointer := s.pointer + 1 }

theorem State.remark_frameFor (s : State) (why : Option Idle) :
    (s.frameFor why).remark = why.map Idle.remark := by
  cases why <;> rfl

namespace World

variable {w v : World} {program : List Char}

theorem pointer_completed (w : World) (left : Bool) (why : Option Idle) :
    (w.completed left why).machine.pointer = w.machine.pointer := by
  obtain ⟨p, t, hm⟩ := exists_moveOn_eq w.machine.toState
  change (moveOn w.machine.toState).pointer = w.machine.pointer
  rw [hm]

/-- A step that works starts on the tape, and ends behind it only by going forward from the last
cell. -/
theorem pointer_of_next (hs : w.machine.Sound program) (h : advance.on w = (.ok (), v)) :
    w.machine.pointer < State.tapeLength ∧
      (v.machine.pointer = State.tapeLength ↔
        w.machine.pointer = State.tapeLength - 1 ∧ w.machine.isDead = false ∧
          w.machine.instruction = .ok Operator.advance.symbol) := by
  obtain ⟨o, c, why, u, hi, hc, ha, rfl⟩ := advance_eq_ok_iff.1 h
  have hlt := hs.pointer_lt hc
  have hpointer := Operator.pointer_act o (w.started o c) c
  have hafter := Operator.pointerAfter_eq_length_iff (o := o)
    (s := (w.started o c).machine.toState) (by rw [← hs.length_cells] at hlt; exact hlt)
  have hlength : (w.started o c).machine.cells.length = State.tapeLength := hs.length_cells
  rw [ha] at hpointer
  rw [hlength] at hafter
  rw [pointer_completed, hpointer, hafter, hi, Except.ok.injEq, Operator.symbol_inj]
  exact ⟨hlt, Iff.rfl⟩

/-- A step forward works wherever on the tape the pointer stands, the last cell included, and leaves
a plain frame. -/
theorem advance_of_forward (hs : w.machine.Sound program)
    (hp : w.machine.pointer < State.tapeLength) (hd : w.machine.isDead = false)
    (hi : w.machine.instruction = .ok Operator.advance.symbol) :
    ∃ v, advance.on w = (.ok (), v) ∧ v.machine.toState = moveOn w.machine.forward ∧
      v.machine.frames = w.machine.frames.push w.machine.forward.frame := by
  have hlen := hs.length_cells
  have hge := hs.pointer_nonneg
  obtain ⟨c, hget⟩ : ∃ c, Index.get w.machine.cells w.machine.pointer = .ok c :=
    Index.exists_get (by omega) (by omega)
  have hact : Operator.advance.act (w.started .advance c) c =
      (.ok none, (w.started .advance c).withState { (w.started .advance c).machine.toState with
        pointer := w.machine.pointer + 1 }) := by
    rw [Operator.act_of_live (w := w.started .advance c) hd]
    refine if_neg ?_
    change w.machine.pointer ≠ w.machine.cells.length
    omega
  exact ⟨_, advance_eq_ok_iff.2 ⟨.advance, c, none, _, hi, State.cell_eq_ok_iff.2 hget, hact, rfl⟩,
    rfl, rfl⟩

/-- A step ends in the fault of a missing cell exactly if the pointer stands behind the tape and
there is an operator to evaluate. -/
theorem isMissingCell_iff {f : Fault} (hs : w.machine.Sound program)
    (h : advance.on w = (.error f, v)) :
    f.isMissingCell = true ↔ w.machine.pointer = State.tapeLength ∧
      ∃ o : Operator, w.machine.instruction = .ok o.symbol := by
  have hcell := State.isOk_cell_iff hs.length_cells hs.pointer_nonneg hs.pointer_le
  obtain ⟨hi, -⟩ | ⟨ch, hi, -, ⟨ho, rfl⟩ | ⟨ho, hc⟩⟩ | ⟨o, c, hi, hc, ha⟩ :=
    advance_eq_error_iff.1 h
  · -- Without an instruction the fault is that of the position.
    refine iff_of_false ?_ ?_
    · unfold Machine.instruction at hi
      split at hi
      · cases hi
        exact Bool.false_ne_true
      · split at hi <;> cases hi
        exact Bool.false_ne_true
    · rintro ⟨-, o, ho⟩
      rw [hi] at ho
      cases ho
  · refine iff_of_false Bool.false_ne_true ?_
    rintro ⟨-, o, hsymbol⟩
    rw [hi] at hsymbol
    cases hsymbol
    rw [Operator.ofSymbol?_symbol] at ho
    cases ho
  · obtain ⟨o, ho⟩ := Option.isSome_iff_exists.1 ho
    obtain rfl := Operator.symbol_of_ofSymbol? ho
    refine iff_of_true ?_ ⟨?_, o, hi⟩
    · unfold State.cell at hc
      split at hc <;> cases hc
      rfl
    · rw [hc] at hcell
      simpa using hcell
  · rw [Operator.not_isMissingCell_of_act ha]
    rw [hc] at hcell
    refine iff_of_false Bool.false_ne_true ?_
    rintro ⟨hp, -⟩
    exact hcell.1 rfl hp

end World

/-- No frame has the remark that the pointer was held. -/
def Machine.NeverHeld (m : Machine) : Prop :=
  ∀ f ∈ m.frames, f.remark ≠ some Idle.atExtent.remark

namespace World

variable {w v : World} {program : List Char}

theorem neverHeld_of_ok (hs : w.machine.Sound program) (hw : w.machine.NeverHeld)
    (h : advance.on w = (.ok (), v)) : v.machine.NeverHeld := by
  obtain ⟨o, c, why, u, -, hc, ha, rfl⟩ := advance_eq_ok_iff.1 h
  have hframes := (Operator.program_frames_of_act ha).2
  intro f hf
  have hpush : f ∈ u.machine.frames.push (u.machine.frameFor why) := hf
  rcases Array.mem_push.1 hpush with hf | rfl
  · rw [hframes] at hf
    exact hw f hf
  · rw [State.remark_frameFor]
    intro hremark
    obtain ⟨i, rfl, hi⟩ := Option.map_eq_some_iff.1 hremark
    obtain rfl := Idle.eq_atExtent_of_remark hi
    have hp : w.machine.pointer = w.machine.cells.length :=
      Operator.pointer_of_atExtent (w := w.started o c) ha
    have hlt := hs.pointer_lt hc
    have hlen := hs.length_cells
    omega

theorem neverHeld_attempts (lines : Lines) (program : String) (n : Nat) :
    ((load lines program).attempts n).2.machine.NeverHeld := by
  induction n with
  | zero =>
    intro f hf
    cases Array.not_mem_empty f hf
  | succ n ih =>
    have hs := (consistent_attempts lines program n).sound
    rw [attempts]
    split
    · exact neverHeld_of_ok hs ih ‹_›
    · rename_i ha
      obtain ⟨symbol, buffer, hm, -⟩ := machine_of_advance_eq_error ha
      rw [hm]
      exact ih

/-- **The end of the tape.**  After any number of attempts at a step of any program, the pointer
stands on the tape or just behind it, and no frame has the remark that it was held.  A step that
works starts on the tape and leaves the pointer behind it exactly if it goes forward from the last
cell; such a step does work, and its frame is that of any other.  A step ends in the fault of a
missing cell exactly if the pointer stands behind the tape and there is an operator to evaluate. -/
theorem attempts_extent (lines : Lines) (program : String) (n : Nat) :
    let w := ((load lines program).attempts n).2
    let last := w.machine.pointer = State.tapeLength - 1 ∧ w.machine.isDead = false ∧
      w.machine.instruction = .ok Operator.advance.symbol
    (0 ≤ w.machine.pointer ∧ w.machine.pointer ≤ State.tapeLength ∧ w.machine.NeverHeld) ∧
    (∀ v, advance.on w = (.ok (), v) → w.machine.pointer < State.tapeLength ∧
      (v.machine.pointer = State.tapeLength ↔ last)) ∧
    (last → ∃ v f, advance.on w = (.ok (), v) ∧ v.machine.frames = w.machine.frames.push f ∧
      f.noop = false) ∧
    ∀ f v, advance.on w = (.error f, v) →
      (f.isMissingCell = true ↔ w.machine.pointer = State.tapeLength ∧
        ∃ o : Operator, w.machine.instruction = .ok o.symbol) := by
  intro w last
  have hs : w.machine.Sound program.toList := (consistent_attempts lines program n).sound
  refine ⟨⟨hs.pointer_nonneg, hs.pointer_le, neverHeld_attempts lines program n⟩, ?_, ?_, ?_⟩
  · exact fun v h => pointer_of_next hs h
  · rintro ⟨hp, hd, hi⟩
    have hlt : w.machine.pointer < State.tapeLength := by omega
    obtain ⟨v, hv, -, hframes⟩ := advance_of_forward hs hlt hd hi
    exact ⟨v, _, hv, hframes, rfl⟩
  · exact fun f v h => isMissingCell_iff hs h

/-- Steps forward from the first cell, as many as the tape has cells at most, all work. -/
theorem attempts_forward (lines : Lines) (program : String) :
    ∀ k ≤ State.tapeLength, (∀ j < k, program.toList[j]? = some Operator.advance.symbol) →
      let m := ((load lines program).attempts k).2.machine
      m.pointer = k ∧ m.position = k ∧ m.isDead = false ∧ m.target = none := by
  intro k
  induction k with
  | zero => exact fun _ _ => ⟨rfl, rfl, rfl, rfl⟩
  | succ k ih =>
    intro hk hforward
    obtain ⟨hpointer, hposition, hd, ht⟩ :=
      ih (Nat.le_of_succ_le hk) fun j hj => hforward j (Nat.lt_succ_of_lt hj)
    have hw := consistent_attempts lines program k
    have hget : Index.get program.toList k = .ok Operator.advance.symbol :=
      Index.get_natCast_eq_ok_iff.2 (hforward k (Nat.lt_succ_self k))
    rw [← hposition, ← hw.program_eq] at hget
    obtain ⟨v, hv, hstate, -⟩ := advance_of_forward hw.sound (by omega) hd
      (Machine.instruction_of_get hget)
    rw [attempts, hv]
    dsimp only
    rw [hstate, State.moveOn_eq_of_target_eq_none (s := State.forward _) ht]
    refine ⟨?_, ?_, hd, ht⟩
    · simp only [State.forward, hpointer, Int.natCast_succ]
    · simp only [State.forward, hposition, Int.natCast_succ]

/-- As many steps forward as the tape has cells leave the pointer behind it, and the next operator
fails there. -/
theorem attempts_extent_passed :
    ∃ program w f v, program = String.ofList (List.replicate State.tapeLength '>' ++ ['+']) ∧
      w = ((load {} program).attempts State.tapeLength).2 ∧
      w.machine.pointer = State.tapeLength ∧ advance.on w = (.error f, v) ∧
      f.isMissingCell = true := by
  obtain ⟨program, hprogram⟩ :
      ∃ p, p = String.ofList (List.replicate State.tapeLength '>' ++ ['+']) := ⟨_, rfl⟩
  obtain ⟨w, hw⟩ : ∃ w, w = ((load {} program).attempts State.tapeLength).2 := ⟨_, rfl⟩
  have htext : program.toList = List.replicate State.tapeLength '>' ++ ['+'] := by
    rw [hprogram, String.toList_ofList]
  have hforward : ∀ j < State.tapeLength, program.toList[j]? = some Operator.advance.symbol := by
    intro j hj
    rw [htext, List.getElem?_append_left (by rwa [List.length_replicate]),
      List.getElem?_replicate, if_pos hj]
    rfl
  have hlast : program.toList[State.tapeLength]? = some Operator.increment.symbol := by
    rw [htext, List.getElem?_append_right (by rw [List.length_replicate]), List.length_replicate,
      Nat.sub_self]
    rfl
  obtain ⟨hpointer, hposition, -, -⟩ :=
    attempts_forward {} program State.tapeLength (Nat.le_refl _) hforward
  have hloaded := (consistent_attempts {} program State.tapeLength).program_eq
  obtain ⟨-, hworks, -, hfails⟩ := attempts_extent {} program State.tapeLength
  rw [← hw] at hpointer hposition hloaded hworks hfails
  have hget : Index.get w.machine.program w.machine.position = .ok Operator.increment.symbol := by
    rw [hposition, hloaded]
    exact Index.get_natCast_eq_ok_iff.2 hlast
  rcases h : advance.on w with ⟨f | _, v⟩
  · have hmissing := (hfails f v h).2 ⟨hpointer, .increment, Machine.instruction_of_get hget⟩
    exact ⟨program, w, f, v, hprogram, hw, hpointer, h, hmissing⟩
  · exact absurd hpointer (Int.ne_of_lt (hworks v h).1)

end World

end TapeMachine
