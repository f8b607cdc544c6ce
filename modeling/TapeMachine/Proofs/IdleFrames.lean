import TapeMachine.Proofs.DeadLoop
import TapeMachine.Proofs.Extent

/-!
# Frames of steps that did nothing

A frame is marked when its step did nothing.  The mark is set by each operator for itself, in seven
places and for seven reasons, but taken together it has one meaning: the machine was dead before the
step, or the operator had nowhere to go (`Operator.IdlesIn`), and such a step goes on to the next
position and may count brackets, and leaves all else as it was (`World.Idles`).  An operation of `?`
on a machine that is not dead is never marked, whoever leaves its frame.

One of the seven reasons, that the pointer is held at the end of the tape, is never given: where it
would be, no operator acts (`World.neverHeld_attempts`).  That is why it has no part in
`Operator.IdlesIn`.
-/

namespace TapeMachine

open Exec

namespace Operator

/-- The operator has nothing to do in the state `s`: the machine is dead, the pointer cannot go
back, the current cell cannot be counted, or the loop that is opened is skipped. -/
def IdlesIn (o : Operator) (s : State) : Prop :=
  0 < s.deadDepth ∨ o = .retreat ∧ s.pointer = 0 ∨
    o = .increment ∧ s.cell = .ok (.int State.byteMax) ∨
    (o = .decrement ∨ o = .beginLoop) ∧ s.cell = .ok Cell.zero

variable {o : Operator} {w v : World} {c : Cell} {why : Option Idle}

/-- On a dead machine every operator that does not end in a fault has a reason to do nothing. -/
theorem isSome_of_skip (ha : o.skip w = (.ok why, v)) : why.isSome = true := by
  cases o with
  | endLoop =>
    simp only [skip] at ha
    split at ha <;> cases ha
    rfl
  | _ => cases ha; rfl

/-- On a machine that is not dead and stands on the tape, an operator has a reason to do nothing
exactly where it has nothing to do. -/
theorem isSome_iff_of_work (hd : w.machine.deadDepth = 0)
    (hp : w.machine.pointer < w.machine.cells.length) (hc : w.machine.cell = .ok c)
    (ha : o.work w c = (.ok why, v)) : why.isSome = true ↔ o.IdlesIn w.machine.toState := by
  have hlive : ¬0 < w.machine.deadDepth := by omega
  simp only [IdlesIn, hlive, hc, Except.ok.injEq, false_or]
  cases o with
  | advance =>
    simp only [work, if_neg (Int.ne_of_lt hp)] at ha
    cases ha
    simp
  | retreat =>
    simp only [work] at ha
    split at ha <;> cases ha <;> simp_all
  | increment | decrement =>
    simp only [work] at ha
    split at ha
    · cases ha
    · split at ha <;> cases ha <;> simp_all [Cell.zero]
  | beginLoop =>
    simp only [work] at ha
    split at ha <;> cases ha <;> simp_all
  | endLoop =>
    simp only [work] at ha
    split at ha <;> cases ha
    simp
  | setMode =>
    cases ha
    simp
  | operate =>
    simp only [work] at ha
    split at ha
    · cases ha
    · cases hr : (Mode.effect _ (w.situation c)).result <;> rw [hr] at ha <;> cases ha
      simp

/-- **When an operator does nothing.** -/
theorem isSome_iff_of_act (hd : 0 ≤ w.machine.deadDepth)
    (hp : w.machine.pointer < w.machine.cells.length) (hc : w.machine.cell = .ok c)
    (ha : o.act w c = (.ok why, v)) : why.isSome = true ↔ o.IdlesIn w.machine.toState := by
  by_cases hz : w.machine.deadDepth = 0
  · rw [act_of_live (by simp [State.isDead, hz])] at ha
    exact isSome_iff_of_work hz hp hc ha
  · rw [act_of_dead (by simp [State.isDead, hz])] at ha
    exact iff_of_true (isSome_of_skip ha) (.inl (by omega))

/-- **What an operator that does nothing leaves**: it may count brackets, and that is all. -/
theorem machine_of_idle {y : Idle} (ha : o.act w c = (.ok (some y), v)) :
    (∃ ls d, v.machine = { w.machine with loops := ls, deadDepth := d }) ∧
      v.lines = w.lines ∧ v.events = w.events := by
  have hopen : (∃ ls d, w.openDeadLoop.machine = { w.machine with loops := ls, deadDepth := d }) ∧
      w.openDeadLoop.lines = w.lines ∧ w.openDeadLoop.events = w.events :=
    ⟨⟨_, _, rfl⟩, rfl, World.events_noted w _⟩
  unfold act at ha
  split at ha
  · cases o with
    | beginLoop =>
      cases ha
      exact hopen
    | endLoop =>
      simp only [skip] at ha
      split at ha <;> cases ha
      exact ⟨⟨_, _, rfl⟩, rfl, rfl⟩
    | _ =>
      cases ha
      exact ⟨⟨_, _, rfl⟩, rfl, rfl⟩
  · cases o with
    | advance | retreat =>
      simp only [work] at ha
      split at ha <;> cases ha
      exact ⟨⟨_, _, rfl⟩, rfl, rfl⟩
    | increment | decrement =>
      simp only [work] at ha
      split at ha
      · cases ha
      · split at ha <;> cases ha
        exact ⟨⟨_, _, rfl⟩, rfl, rfl⟩
    | beginLoop =>
      simp only [work] at ha
      split at ha <;> cases ha
      exact hopen
    | endLoop =>
      simp only [work] at ha
      split at ha <;> cases ha
    | setMode => cases ha
    | operate =>
      simp only [work] at ha
      split at ha
      · cases ha
      · cases hr : (Mode.effect _ (w.situation c)).result <;> rw [hr] at ha <;> cases ha

end Operator

theorem State.noop_frameFor (s : State) (why : Option Idle) :
    (s.frameFor why).noop = why.isSome := by
  cases why <;> rfl

namespace World

variable {w v : World} {program : List Char} {k : Nat}

/-- A step leaves a frame that is marked exactly where its operator has nothing to do, and then the
step does nothing. -/
theorem exists_frame_marked (hw : Consistent program k w.machine) (h : w.Next v) :
    ∃ (o : Operator) (f : Frame), w.machine.instruction = .ok o.symbol ∧
      v.machine.frames = w.machine.frames.push f ∧
      (f.noop = true ↔ o.IdlesIn w.machine.toState) ∧ (f.noop = true → w.Idles 1 v) := by
  obtain ⟨o, c, why, u, hi, hc, ha, rfl⟩ := advance_eq_ok_iff.1 h
  have hlt : w.machine.pointer < w.machine.cells.length := by
    rw [hw.sound.length_cells]
    exact hw.sound.pointer_lt hc
  refine ⟨o, u.machine.frameFor why, hi, ?_, ?_, ?_⟩
  · change u.machine.frames.push _ = _
    rw [(Operator.program_frames_of_act ha).2]
    rfl
  · rw [State.noop_frameFor]
    exact Operator.isSome_iff_of_act (w := w.started o c) hw.sound.dead_nonneg hlt hc ha
  · rw [State.noop_frameFor]
    intro hsome
    obtain ⟨y, rfl⟩ := Option.isSome_iff_exists.1 hsome
    obtain ⟨⟨ls, d, hm⟩, hl, he⟩ := Operator.machine_of_idle ha
    obtain ⟨x, hx, -, -⟩ := Idles.of_act hi hc hw.target_eq ha hm hl
      (he.trans (events_started w o c))
    -- There is one step only that the machine can make.
    have hsteps := hx.steps_eq
    rw [steps_succ_of_next h, steps] at hsteps
    cases hsteps
    exact hx

/-- A run has made its attempts at a step one after another. -/
theorem exists_steps_eq_attempts (w : World) (n : Nat) :
    ∃ m, (w.steps n).2 = (w.attempts m).2 ∧ ((w.steps n).1.isOk = true → m = n) := by
  induction n with
  | zero => exact ⟨0, rfl, fun _ => rfl⟩
  | succ n ih =>
    obtain ⟨m, hm, hok⟩ := ih
    rw [steps_succ_last]
    rcases hn : w.steps n with ⟨f | _, u⟩
    · rw [hn] at hm
      exact ⟨m, hm, fun h => by cases h⟩
    · rw [hn] at hm hok
      obtain rfl := hok rfl
      refine ⟨m + 1, ?_, fun _ => rfl⟩
      rw [attempts, ← hm]
      dsimp only
      rcases advance.on u with ⟨f | _, x⟩ <;> rfl

theorem neverHeld_run (lines : Lines) (program : String) (n : Nat) :
    ((load lines program).run n).world.machine.NeverHeld := by
  obtain ⟨m, hm, -⟩ := (load lines program).exists_steps_eq_attempts n
  rw [world_run, hm]
  exact neverHeld_attempts lines program m

/-- **What the mark on a frame means.**  After any number of attempts at a step of any program, a
step that works leaves one frame more, and it is marked exactly if the machine was dead before the
step, or the operator goes back on the first cell, counts up a cell that holds the largest byte,
counts down a zero, or opens a loop on a zero.  A step with a marked frame leaves the tape, the
pointer, the buffer, the mode and the target as they were; nothing happens in it on the lines, and
nothing is read off them.  No frame that these attempts or a run leave has the remark that the
pointer was held at the end of the tape. -/
theorem attempts_marked (lines : Lines) (program : String) (n : Nat) :
    let w := ((load lines program).attempts n).2
    (∀ v, advance.on w = (.ok (), v) → ∃ (o : Operator) (f : Frame),
      w.machine.instruction = .ok o.symbol ∧ v.machine.frames = w.machine.frames.push f ∧
      (f.noop = true ↔ o.IdlesIn w.machine.toState) ∧
      (f.noop = true → v.Agree w ∧ v.machine.target = w.machine.target)) ∧
    (∀ f ∈ w.machine.frames, f.remark ≠ some "mptr at extent") ∧
    ∀ f ∈ ((load lines program).run n).world.machine.frames, f.remark ≠ some "mptr at extent" := by
  intro w
  refine ⟨fun v h => ?_, neverHeld_attempts lines program n, neverHeld_run lines program n⟩
  obtain ⟨o, f, hi, hf, hmark, hidle⟩ :=
    exists_frame_marked (consistent_attempts lines program n) h
  exact ⟨o, f, hi, hf, hmark, fun hnoop => ⟨(hidle hnoop).agree, (hidle hnoop).target_eq⟩⟩

/-- The operator `?` in a skipped loop, in a mode that reads and with a reader on the line: its
frame is marked and the text stays on the line. -/
theorem attempts_marked_unread :
    ∃ lines w v f, lines = { console := { input := some [.text "7"] } } ∧
      w = ((load lines "+=[-][?]").attempts 9).2 ∧ w.machine.mode = .int 1 ∧
      w.machine.instruction = .ok Operator.operate.symbol ∧ advance.on w = (.ok (), v) ∧
      v.machine.frames = w.machine.frames.push f ∧ f.noop = true ∧
      v.lines = w.lines ∧ v.events = w.events := by
  obtain ⟨lines, hlines⟩ : ∃ lines : Lines, lines = { console := { input := some [.text "7"] } } :=
    ⟨_, rfl⟩
  obtain ⟨w, hw⟩ : ∃ w, w = ((load lines "+=[-][?]").attempts 9).2 := ⟨_, rfl⟩
  have hok : (advance.on w).1.isOk = true := by rw [hw, hlines]; decide +kernel
  have hmode : w.machine.mode = .int 1 := by rw [hw, hlines]; decide +kernel
  have hinstruction : w.machine.instruction = .ok Operator.operate.symbol := by
    rw [hw, hlines]
    decide +kernel
  have hdead : 0 < w.machine.deadDepth := by rw [hw, hlines]; decide +kernel
  have hmarked := (attempts_marked lines "+=[-][?]" 9).1
  rw [← hw] at hmarked
  rcases hv : advance.on w with ⟨f | ⟨⟩, v⟩
  · rw [hv] at hok
    cases hok
  · obtain ⟨o, f, -, hf, hmark, hidle⟩ := hmarked v hv
    have hnoop : f.noop = true := hmark.2 (.inl hdead)
    have hagree := (hidle hnoop).1
    exact ⟨lines, w, v, f, hlines, hw, hmode, hinstruction, hv, hf, hnoop, hagree.lines_eq,
      hagree.events_eq⟩

end World

end TapeMachine
