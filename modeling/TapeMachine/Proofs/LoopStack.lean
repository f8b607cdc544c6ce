import TapeMachine.Proofs.Brackets
import TapeMachine.Proofs.OperationFault
import TapeMachine.Proofs.Run

/-!
# The stack of open loops

As long as no step jumps, the stack of open loops can be read off the program: it holds the opening
brackets before the position that no later bracket before the position closes
(`World.plain_loops_unclosed`).  A live closing bracket moves the position back, so this is not a
fact about the steps taken but about the position reached: going back to an opening bracket, the
machine finds the stack as it was when it came there first (`Brackets.openAt_of_eq_append`).

Position zero is no target of a jump, and a loop opened there could not be repeated.  It never has
to be: the first cell is zero when the run begins, so a loop opened at position zero is skipped, and
so is every loop inside it (`State.Tracks.dead_of_first`).
-/

namespace TapeMachine

open Brackets Exec Relation

/-! ### Steps without jumps -/

/-- The operation of the mode sets the position. -/
def Mode.isJump : Mode → Bool
  | .jumpLeft | .jumpRight => true
  | _ => false

/-- The next step carries out an operation that sets the position. -/
def Machine.Jumps (m : Machine) : Prop :=
  m.isDead = false ∧ m.instruction.toOption = some Operator.operate.symbol ∧ m.cell.isOk ∧
    (Mode.ofCell? m.mode).any Mode.isJump

instance : DecidablePred Machine.Jumps := fun _ => inferInstanceAs (Decidable (_ ∧ _ ∧ _ ∧ _))

theorem Machine.not_isJump_of_not_jumps {m : Machine} {c : Cell} {j : Mode} (h : ¬ m.Jumps)
    (hd : m.isDead = false) (hi : m.instruction = .ok Operator.operate.symbol)
    (hc : m.cell = .ok c) (hm : Mode.ofCell? m.mode = some j) : j.isJump = false := by
  rw [← Bool.not_eq_true]
  intro hj
  refine h ⟨hd, ?_, ?_, ?_⟩
  · rw [hi]; rfl
  · rw [hc]; rfl
  · rw [hm]; exact hj

namespace World

/-- A step that does not jump leads from `w` to `w'`. -/
def PlainNext (w w' : World) : Prop := ¬ w.machine.Jumps ∧ w.Next w'

/-- No step from `w` on jumps. -/
def JumpFree (w : World) : Prop :=
  ∀ w', ReflTransGen Next w w' → ¬ w'.machine.Jumps

variable {w w' : World}

theorem JumpFree.next (h : w.JumpFree) (hn : w.Next w') : w'.JumpFree :=
  fun v hv => h v (.head hn hv)

theorem JumpFree.not_jumps (h : w.JumpFree) : ¬ w.machine.Jumps := h w .refl

theorem JumpFree.plain (h : w.JumpFree) (hr : ReflTransGen Next w w') :
    ReflTransGen PlainNext w w' := by
  induction hr with
  | refl => exact .refl
  | tail hr hn ih => exact ih.tail ⟨h _ hr, hn⟩

/-- Makes up to `n` steps, and says whether a fault came before any jump. -/
def failsBeforeJump : Nat → World → Bool
  | 0, _ => false
  | n + 1, w =>
    !decide w.machine.Jumps &&
      match advance.on w with
      | (.ok _, w') => failsBeforeJump n w'
      | (.error _, _) => true

theorem jumpFree_of_failsBeforeJump {n : Nat} (h : w.failsBeforeJump n = true) : w.JumpFree := by
  induction n generalizing w with
  | zero => cases h
  | succ n ih =>
    rw [failsBeforeJump, Bool.and_eq_true, Bool.not_eq_true', decide_eq_false_iff_not] at h
    obtain ⟨hj, h⟩ := h
    intro v hv
    obtain rfl | ⟨u, hu, hr⟩ := hv.cases_head
    · exact hj
    · rw [show advance.on w = (.ok (), u) from hu] at h
      exact ih h v hr

end World

/-! ### What operators other than brackets do to loops and position -/

/-- Nothing that decides where the machine goes next has changed. -/
structure State.SameControl (s t : State) : Prop where
  position_eq : t.position = s.position
  target_eq : t.target = s.target
  loops_eq : t.loops = s.loops
  dead_eq : t.deadDepth = s.deadDepth

theorem State.SameControl.rfl {s : State} : s.SameControl s := ⟨.refl _, .refl _, .refl _, .refl _⟩

theorem Effect.target_ending (e : Effect) (r : Except Fault (Option Cell)) :
    (e.ending r).target = e.target := by
  cases r <;> rfl

/-- Only a jump sets a target. -/
theorem Mode.target_effect {m : Mode} (h : m.isJump = false) (s : Situation) :
    (m.effect s).target = none := by
  cases m with
  | jumpLeft | jumpRight => cases h
  | consoleDecimalWrite | consoleAsciiWrite | modemAsciiWrite =>
    simp only [effect, Situation.write]
    (repeat' split) <;> rfl
  | consoleDecimalRead | consoleAsciiRead | modemAsciiRead =>
    simp only [effect, Situation.read]
    split
    · rfl
    · split
      · exact Effect.target_ending _ _
      · rfl
      · rfl
  | executeTask =>
    simp only [effect, Situation.task]
    split
    · rfl
    · rename_i t _
      cases t <;> simp only [Task.effect] <;> (repeat' split) <;> rfl
  | enqueue =>
    simp only [effect, Situation.enqueue]
    (repeat' split) <;> rfl
  | dequeueLast =>
    simp only [effect, Situation.takeLast]
    split <;> rfl
  | bufferProgram | clearBuffer => rfl
  | _ => exact Effect.target_ending _ _

theorem World.apply_sameControl (w : World) {e : Effect} (h : e.target = none) :
    w.machine.SameControl (w.apply e).machine.toState where
  position_eq := rfl
  target_eq := by simp only [World.apply, h]
  loops_eq := rfl
  dead_eq := rfl

namespace Operator

/-- The operator opens or closes a loop. -/
def isBracket : Operator → Bool
  | .beginLoop | .endLoop => true
  | _ => false

theorem symbol_ne_of_not_isBracket {o : Operator} (hb : o.isBracket = false) :
    o.symbol ≠ '[' ∧ o.symbol ≠ ']' := by
  cases o with
  | beginLoop | endLoop => cases hb
  | _ => decide

/-- On a machine that is not dead, an operator other than a bracket changes where the machine goes
only by a jump. -/
theorem work_sameControl {o : Operator} {w v : World} {c : Cell} {r : Except Fault (Option Idle)}
    (hb : o.isBracket = false)
    (hj : o = .operate → ∀ m, Mode.ofCell? w.machine.mode = some m → m.isJump = false)
    (ha : o.work w c = (r, v)) : w.machine.SameControl v.machine.toState := by
  cases o with
  | beginLoop | endLoop => cases hb
  | advance | retreat =>
    simp only [work] at ha
    split at ha <;> cases ha <;> exact ⟨rfl, rfl, rfl, rfl⟩
  | increment | decrement =>
    simp only [work] at ha
    split at ha
    · cases ha; exact .rfl
    · split at ha <;> cases ha <;> exact ⟨rfl, rfl, rfl, rfl⟩
  | setMode => cases ha; exact ⟨rfl, rfl, rfl, rfl⟩
  | operate =>
    simp only [work] at ha
    split at ha
    · cases ha; exact .rfl
    · rename_i m hm
      obtain ⟨-, rfl⟩ := Prod.ext_iff.1 ha
      exact World.apply_sameControl (w.noted (.operating m)) (m.target_effect (hj rfl m hm) _)

theorem skip_eq_of_not_isBracket {o : Operator} (hb : o.isBracket = false) (w : World) :
    o.skip w = (.ok (some .dead), w) := by
  cases o with
  | beginLoop | endLoop => cases hb
  | _ => rfl

end Operator

/-! ### The invariant -/

namespace State

/-- What holds of a machine that stands at position `e` after steps that did not jump. -/
structure Tracks (program : List Char) (e : Nat) (s : State) : Prop where
  position_eq : s.position = e
  le_length : e ≤ program.length
  target_eq : s.target = none
  /-- The open loops are the open brackets. -/
  loops_eq : s.loops = (openAt program e).map (↑)
  /-- No closing bracket before the position stands alone. -/
  covered : Covered program e
  dead_nonneg : 0 ≤ s.deadDepth
  dead_le : s.deadDepth ≤ s.loops.length
  /-- The first instruction finds a zero. -/
  cell_of_first : e = 0 → s.cell = .ok Cell.zero
  /-- A loop that was opened by the first instruction is skipped, and so are all others. -/
  dead_of_first : 0 ∈ openAt program e → s.deadDepth = s.loops.length

theorem initial_tracks (program : List Char) : initial.Tracks program 0 where
  position_eq := rfl
  le_length := Nat.zero_le _
  target_eq := rfl
  loops_eq := rfl
  covered := by
    intro k hk
    rw [Nat.le_zero.1 hk, height_zero]
  dead_nonneg := Int.le_refl _
  dead_le := Int.le_refl _
  cell_of_first := by
    intro _
    refine cell_eq_ok_iff.2 ((Index.get_natCast_eq_ok_iff (k := 0)).2 ?_)
    exact List.getElem?_replicate_of_lt (by decide)
  dead_of_first := by intro h; cases h

theorem deadDepth_eq_zero {s : State} (h : s.isDead = false) : s.deadDepth = 0 := by
  simpa [isDead] using h

theorem moveOn_eq_of_target_eq_none {s : State} (h : s.target = none) :
    moveOn s = { s with position := s.position + 1 } := by
  unfold moveOn
  rw [h]

theorem moveOn_eq_of_target_ne_zero {s : State} {p : Int} (h : s.target = some p) (hp : p ≠ 0) :
    moveOn s = { s with position := p, target := none } := by
  unfold moveOn
  rw [h]
  split
  · rename_i h0
    exact absurd (Option.some.inj h0) hp
  · rename_i h0
    cases h0
  · rename_i h0
    cases h0
    rfl

namespace Tracks

variable {program : List Char} {e : Nat} {s : State}

theorem length_loops (h : s.Tracks program e) : s.loops.length = (openAt program e).length := by
  rw [h.loops_eq, List.length_map]

theorem of_moveOn (ht : s.target = none)
    (h : { s with position := s.position + 1 }.Tracks program e) :
    (moveOn s).Tracks program e := by
  rw [moveOn_eq_of_target_eq_none ht]
  exact h

/-- The next instruction is no bracket. -/
theorem other (h : s.Tracks program e) {o : Operator} (hb : o.isBracket = false)
    (hi : program[e]? = some o.symbol) {t : State} (ht : s.SameControl t) :
    (moveOn t).Tracks program (e + 1) := by
  obtain ⟨hno, hnc⟩ := Operator.symbol_ne_of_not_isBracket hb
  have ho : program[e]? ≠ some '[' := fun hx => hno (Option.some.inj (hi.symm.trans hx))
  have hc : program[e]? ≠ some ']' := fun hx => hnc (Option.some.inj (hi.symm.trans hx))
  have hopen := openAt_succ_of_other ho hc
  refine of_moveOn (ht.target_eq.trans h.target_eq) ?_
  exact
    { position_eq := by
        change t.position + 1 = _
        rw [ht.position_eq, h.position_eq]
        rfl
      le_length := (List.getElem?_eq_some_iff.1 hi).1
      target_eq := ht.target_eq.trans h.target_eq
      loops_eq := by rw [hopen]; exact ht.loops_eq.trans h.loops_eq
      covered := h.covered.succ (by
        rw [height_succ_of_other ho hc]
        exact h.covered e (Nat.le_refl e))
      dead_nonneg := by rw [ht.dead_eq]; exact h.dead_nonneg
      dead_le := by rw [ht.dead_eq, ht.loops_eq]; exact h.dead_le
      cell_of_first := fun hz => absurd hz (Nat.succ_ne_zero e)
      dead_of_first := by
        rw [hopen, ht.dead_eq, ht.loops_eq]
        exact h.dead_of_first }

/-- What an opening bracket leaves, whether the loop is skipped or not. -/
theorem of_open (h : s.Tracks program e) (ho : program[e]? = some '[') {t : State}
    (hp : t.position = (e : Int) + 1) (ht : t.target = none) (hl : t.loops = (e : Int) :: s.loops)
    (hn : 0 ≤ t.deadDepth) (hle : t.deadDepth ≤ t.loops.length)
    (hf : e = 0 ∨ 0 ∈ openAt program e → t.deadDepth = t.loops.length) :
    t.Tracks program (e + 1) where
  position_eq := hp
  le_length := (List.getElem?_eq_some_iff.1 ho).1
  target_eq := ht
  loops_eq := by rw [openAt_succ_of_open ho, List.map_cons, hl, h.loops_eq]
  covered := h.covered.succ (by
    have := h.covered e (Nat.le_refl e)
    rw [height_succ_of_open ho]
    omega)
  dead_nonneg := hn
  dead_le := hle
  cell_of_first := fun hz => absurd hz (Nat.succ_ne_zero e)
  dead_of_first := by
    rw [openAt_succ_of_open ho, List.mem_cons]
    rintro (hz | hm)
    · exact hf (.inl hz.symm)
    · exact hf (.inr hm)

/-- A loop is opened and skipped. -/
theorem openDeadLoop (h : s.Tracks program e) (ho : program[e]? = some '[') :
    (moveOn { s with loops := s.position :: s.loops, deadDepth := s.deadDepth + 1 }).Tracks
      program (e + 1) := by
  have hn := h.dead_nonneg
  have hle := h.dead_le
  refine of_moveOn h.target_eq (h.of_open ho (by simp [h.position_eq]) h.target_eq
    (by simp [h.position_eq]) ?_ ?_ ?_)
  · simp only
    omega
  · simp only [List.length_cons]
    omega
  · rintro (rfl | hm)
    · have hlen := h.length_loops
      rw [openAt_zero, List.length_nil] at hlen
      simp only [List.length_cons]
      omega
    · have := h.dead_of_first hm
      simp only [List.length_cons]
      omega

/-- A loop is opened and entered: its bracket is not the first instruction, which finds a zero. -/
theorem openLoop (h : s.Tracks program e) (ho : program[e]? = some '[') (hd : s.isDead = false)
    {c : Cell} (hc : s.cell = .ok c) (hz : c ≠ Cell.zero) :
    (moveOn { s with loops := s.position :: s.loops }).Tracks program (e + 1) := by
  have hdead := deadDepth_eq_zero hd
  refine of_moveOn h.target_eq (h.of_open ho (by simp [h.position_eq]) h.target_eq
    (by simp [h.position_eq]) h.dead_nonneg ?_ ?_)
  · simp only [hdead]
    omega
  · rintro (he | hm)
    · have := (h.cell_of_first he).symm.trans hc
      exact absurd (Except.ok.inj this).symm hz
    · have hlen := h.dead_of_first hm
      rw [hdead, h.length_loops] at hlen
      rw [List.length_eq_zero_iff.1 (Int.ofNat.inj hlen.symm)] at hm
      cases hm

/-- A loop that was skipped is closed. -/
theorem closeDeadLoop (h : s.Tracks program e) (hc : program[e]? = some ']')
    (hd : s.isDead = true) {p : Int} {ps : List Int} (hl : s.loops = p :: ps) :
    (moveOn { s with loops := ps, deadDepth := s.deadDepth - 1 }).Tracks program (e + 1) := by
  have hn := h.dead_nonneg
  have hle := h.dead_le
  have hopen := h.loops_eq
  have hheight := length_openAt h.covered
  rw [isDead, bne_iff_ne] at hd
  cases hs : openAt program e with
  | nil => simp [hs, hl] at hopen
  | cons k ks =>
    rw [hs, hl, List.map_cons] at hopen
    obtain ⟨rfl, rfl⟩ := List.cons.inj hopen
    rw [hl, List.length_cons] at hle
    rw [hs, List.length_cons] at hheight
    have hnext : openAt program (e + 1) = ks := by rw [openAt_succ_of_close hc, hs, List.tail_cons]
    refine of_moveOn h.target_eq ?_
    exact
      { position_eq := by simp [h.position_eq]
        le_length := (List.getElem?_eq_some_iff.1 hc).1
        target_eq := h.target_eq
        loops_eq := by rw [hnext]
        covered := h.covered.succ (by
          rw [height_succ_of_close hc]
          omega)
        dead_nonneg := by
          dsimp only
          omega
        dead_le := by
          dsimp only
          omega
        cell_of_first := fun hz => absurd hz (Nat.succ_ne_zero e)
        dead_of_first := by
          rw [hnext]
          intro hm
          have := h.dead_of_first (by rw [hs]; exact List.mem_cons_of_mem k hm)
          rw [hl, List.length_cons] at this
          dsimp only
          omega }

/-- A loop that was entered is closed: the machine goes back to its opening bracket, which is not
the first instruction. -/
theorem closeLoop (h : s.Tracks program e) (hd : s.isDead = false) {p : Int} {ps : List Int}
    (hl : s.loops = p :: ps) :
    ∃ k : Nat, p = k ∧ k < e ∧ program[k]? = some '[' ∧
      moveOn { s with loops := ps, target := some p } =
        { s with loops := ps, position := p, target := none } ∧
      { s with loops := ps, position := p, target := none }.Tracks program k := by
  have hdead := deadDepth_eq_zero hd
  have hopen := h.loops_eq
  -- Had the first instruction opened a loop that is still open, the machine would be dead.
  have hfirst : 0 ∉ openAt program e := by
    intro hm
    have := h.dead_of_first hm
    rw [hl, List.length_cons] at this
    omega
  cases hs : openAt program e with
  | nil => simp [hs, hl] at hopen
  | cons k ks =>
    rw [hs, hl, List.map_cons] at hopen
    obtain ⟨rfl, rfl⟩ := List.cons.inj hopen
    obtain ⟨hke, hko⟩ := of_mem_openAt (hs ▸ List.mem_cons_self : k ∈ openAt program e)
    have hks : openAt program k = ks := openAt_of_eq_append (l := []) hs
    rw [hs, List.mem_cons, not_or] at hfirst
    have hk : (k : Int) ≠ 0 := by omega
    refine ⟨k, rfl, hke, hko, moveOn_eq_of_target_ne_zero rfl hk, ?_⟩
    exact
      { position_eq := rfl
        le_length := hke.le.trans h.le_length
        target_eq := rfl
        loops_eq := by rw [hks]
        covered := h.covered.mono hke.le
        dead_nonneg := h.dead_nonneg
        dead_le := by
          rw [hdead]
          exact Int.natCast_nonneg _
        cell_of_first := fun hz => absurd hz (by omega)
        dead_of_first := by
          rw [hks]
          exact fun hm => absurd hm hfirst.2 }

end Tracks

end State

namespace Operator

variable {o : Operator} {w v : World} {c : Cell} {why : Option Idle} {e : Nat}

theorem skip_tracks (ht : w.machine.Tracks w.machine.program e)
    (hi : w.machine.program[e]? = some o.symbol) (hd : w.machine.isDead = true)
    (ha : o.skip w = (.ok why, v)) :
    ∃ e', (moveOn v.machine.toState).Tracks w.machine.program e' := by
  cases hb : o.isBracket with
  | false =>
    rw [skip_eq_of_not_isBracket hb] at ha
    cases ha
    exact ⟨e + 1, ht.other hb hi .rfl⟩
  | true =>
    cases o with
    | beginLoop =>
      cases ha
      exact ⟨e + 1, ht.openDeadLoop hi⟩
    | endLoop =>
      simp only [skip] at ha
      split at ha <;> cases ha
      exact ⟨e + 1, ht.closeDeadLoop hi hd ‹_›⟩
    | _ => cases hb

theorem work_tracks (ht : w.machine.Tracks w.machine.program e)
    (hi : w.machine.program[e]? = some o.symbol) (hd : w.machine.isDead = false)
    (hc : w.machine.cell = .ok c)
    (hj : o = .operate → ∀ m, Mode.ofCell? w.machine.mode = some m → m.isJump = false)
    (ha : o.work w c = (.ok why, v)) :
    ∃ e', (moveOn v.machine.toState).Tracks w.machine.program e' := by
  cases hb : o.isBracket with
  | false => exact ⟨e + 1, ht.other hb hi (work_sameControl hb hj ha)⟩
  | true =>
    cases o with
    | beginLoop =>
      simp only [work] at ha
      split_ifs at ha with hz <;> cases ha
      · exact ⟨e + 1, ht.openDeadLoop hi⟩
      · exact ⟨e + 1, ht.openLoop hi hd hc hz⟩
    | endLoop =>
      simp only [work] at ha
      split at ha <;> cases ha
      obtain ⟨k, -, -, -, hm, hk⟩ := ht.closeLoop hd ‹_›
      exact ⟨k, hm ▸ hk⟩
    | _ => cases hb

end Operator

namespace World

variable {w w' : World} {program : List Char}

theorem tracks_of_plainNext {e : Nat} (ht : w.machine.Tracks w.machine.program e)
    (h : w.PlainNext w') : ∃ e', w'.machine.Tracks w'.machine.program e' := by
  obtain ⟨hj, hn⟩ := h
  rw [program_of_next hn]
  obtain ⟨o, c, why, v, hi, hc, ha, rfl⟩ := advance_eq_ok_iff.1 hn
  have hget := Machine.getElem?_of_instruction ht.position_eq hi
  have ht' : (w.started o c).machine.Tracks w.machine.program e := { ht with }
  unfold Operator.act at ha
  split at ha
  · rename_i hd
    exact Operator.skip_tracks (w := w.started o c) ht' hget hd ha
  · rename_i hd
    rw [Bool.not_eq_true] at hd
    refine Operator.work_tracks (w := w.started o c) ht' hget hd hc ?_ ha
    rintro rfl m hm
    exact Machine.not_isJump_of_not_jumps hj hd hi hc hm

theorem tracks_of_plainReach (lines : Lines) (program : String)
    (h : ReflTransGen PlainNext (load lines program) w) :
    w.machine.program = program.toList ∧ ∃ e, w.machine.Tracks program.toList e := by
  induction h with
  | refl => exact ⟨rfl, 0, State.initial_tracks _⟩
  | tail _ hn ih =>
    obtain ⟨hp, e, ht⟩ := ih
    have hp' := (program_of_next hn.2).trans hp
    rw [← hp] at ht
    exact ⟨hp', hp' ▸ tracks_of_plainNext ht hn⟩

/-- The fault of a closing bracket comes at the first position where too many are closed. -/
theorem first_overclosed_of_unmatchedClose {e : Nat} {p : Int}
    (ht : w.machine.Tracks w.machine.program e)
    (h : advance.on w = (.error (.unmatchedClose p), w')) :
    p = e ∧ Overclosed w.machine.program e ∧ ∀ i < e, ¬ Overclosed w.machine.program i := by
  obtain ⟨hi, hl, hp⟩ := of_advance_eq_unmatchedClose h
  have hopen : openAt w.machine.program e = [] := by
    have := ht.loops_eq
    rw [hl] at this
    exact List.map_eq_nil_iff.1 this.symm
  have hclose := Machine.getElem?_of_instruction ht.position_eq hi
  exact ⟨hp.trans ht.position_eq, overclosed_of_openAt_eq_nil ht.covered hopen hclose,
    fun i hie => ht.covered.not_overclosed hie⟩

theorem plainReach_steps (h : w.JumpFree) {n : Nat} (hn : (w.steps n).1.isOk) :
    ReflTransGen PlainNext w (w.steps n).2 := by
  induction n generalizing w with
  | zero => exact .refl
  | succ n ih =>
    rw [steps] at hn ⊢
    rcases ha : advance.on w with ⟨_ | _, u⟩
    · rw [ha] at hn
      cases hn
    · rw [ha] at hn
      exact .head ⟨h.not_jumps, ha⟩ (ih (h.next ha) hn)

/-- **The open loops are the unclosed brackets.**  Whatever the program, in every state that is
reached by steps that do not jump, the position lies in the program, no target is left, the open
loops are the brackets before the position that none before the position closes, and at most these
are skipped.  So a closing bracket is refused only at the first position where more are closed than
opened, and a program with such a position never comes to its end without a jump. -/
theorem plain_loops_unclosed (lines : Lines) (program : String) :
    (∀ w, ReflTransGen PlainNext (load lines program) w →
      (0 ≤ w.machine.position ∧ w.machine.position ≤ program.toList.length ∧
        w.machine.target = none ∧
        w.machine.loops.reverse = (unclosed program.toList w.machine.position.toNat).map (↑) ∧
        w.machine.deadDepth ≤ w.machine.loops.length) ∧
      ∀ p w', advance.on w = (.error (.unmatchedClose p), w') →
        ∃ j : Nat, p = j ∧ Overclosed program.toList j ∧ ∀ i < j, ¬ Overclosed program.toList i) ∧
    ((load lines program).JumpFree → ∀ j, Overclosed program.toList j →
      ∀ n w, (load lines program).run n ≠ .finished w) := by
  refine ⟨fun w hw => ?_, fun hfree j hj n w hrun => ?_⟩
  · obtain ⟨hprog, e, ht⟩ := tracks_of_plainReach lines program hw
    have he : w.machine.position.toNat = e := by rw [ht.position_eq]; rfl
    refine ⟨⟨?_, ?_, ht.target_eq, ?_, ht.dead_le⟩, fun p w' h => ?_⟩
    · rw [ht.position_eq]
      exact Int.natCast_nonneg e
    · rw [ht.position_eq]
      exact Int.ofNat_le.2 ht.le_length
    · rw [he, ← reverse_openAt ht.covered, ht.loops_eq, List.map_reverse]
    · rw [← hprog] at ht ⊢
      exact ⟨e, first_overclosed_of_unmatchedClose ht h⟩
  · obtain ⟨hr, hf⟩ := reaches_of_run_eq_finished hrun
    obtain ⟨hprog, e, ht⟩ := tracks_of_plainReach lines program (hfree.plain hr)
    rw [Machine.isFinished, decide_eq_true_iff, Machine.size, hprog, ht.position_eq] at hf
    exact ht.covered.not_overclosed_of_length_le (Int.ofNat_le.1 hf) hj

/-- A loop that is repeated once, and a bracket too many behind it. -/
theorem plain_loops_unclosed_surplus :
    let w := load {} "+[?-]]"
    w.JumpFree ∧ Overclosed w.machine.program 5 ∧ (∀ n v, w.run n ≠ .finished v) ∧
      ReflTransGen PlainNext w (w.steps 3).2 ∧
      (w.steps 3).2.machine.loops.reverse =
        (unclosed w.machine.program (w.steps 3).2.machine.position.toNat).map (↑) := by
  have hfree : (load {} "+[?-]]").JumpFree :=
    jumpFree_of_failsBeforeJump (n := 12) (by decide +kernel)
  have hover : Overclosed (load {} "+[?-]]").machine.program 5 := by
    unfold Overclosed
    decide
  have hreach := plainReach_steps hfree (n := 3) (by decide +kernel)
  obtain ⟨hstates, hend⟩ := plain_loops_unclosed {} "+[?-]]"
  exact ⟨hfree, hover, hend hfree 5 hover, hreach, (hstates _ hreach).1.2.2.2.1⟩

end World

end TapeMachine
