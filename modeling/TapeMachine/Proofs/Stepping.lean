import TapeMachine.Proofs.Run

/-!
# Running in parts

There are two ways to go through a program: single steps, which are refused at the end of the
program only where the position is *at* its end or no instruction can be fetched, and the run, which
stops wherever the position is at the end *or past it*.  The two tests differ behind the end, where
a jump to the right may lead, and for positions that count from the back.  Yet a run that comes to
its end can be made in parts (`World.run_in_parts`): any number of single steps, and then the run,
lead to the same world as the run alone, and a step too many changes nothing.

* `World.EndsAfter` says that a run comes to its end after a given number of steps;
* `World.steps_add` splits a number of steps in two;
* `Machine.instruction_of_isFinished` says which fault a step behind the end gives.
-/

namespace TapeMachine

open Exec

namespace Machine

variable {m : Machine}

/-- The fault of a step at the end of the program, or behind it. -/
def endFault (m : Machine) : Fault :=
  if m.position = m.size then .endOfProgram
  else .noInstruction (if Index.fits m.position then .outside else .oversized)

theorem instruction_of_isFinished (h : m.isFinished = true) : m.instruction = .error m.endFault := by
  rw [isFinished, decide_eq_true_iff] at h
  unfold instruction endFault
  by_cases hp : m.position = m.size
  · rw [if_pos hp, if_pos hp]
  · -- Behind the end the position counts neither from the front nor from the back.
    have hfront : ¬ (0 ≤ m.position ∧ m.position < m.program.length) := by
      rw [size] at h
      omega
    have hback : ¬ (m.position < 0 ∧ -(m.program.length : Int) ≤ m.position) := by
      rw [size] at h
      omega
    rw [if_neg hp, if_neg hp]
    unfold Index.get Index.resolve
    rw [if_neg hfront, if_neg hback]
    cases Index.fits m.position <;> rfl

end Machine

namespace World

variable {w u v : World} {n k m : Nat}

/-- A step at the end of the program, or behind it, changes nothing. -/
theorem advance_of_isFinished (h : w.machine.isFinished = true) :
    advance.on w = (.error w.machine.endFault, w) :=
  advance_eq_error_iff.2 (.inl ⟨Machine.instruction_of_isFinished h, rfl⟩)

/-- Some steps, and then more. -/
theorem steps_add (w : World) (j k : Nat) :
    w.steps (j + k) = match w.steps j with
      | (.ok _, u) => u.steps k
      | (.error f, u) => (.error f, u) := by
  induction j generalizing w with
  | zero => rw [Nat.zero_add, steps]
  | succ j ih =>
    rw [Nat.add_right_comm, steps, steps]
    rcases advance.on w with ⟨f | _, u⟩
    · rfl
    · exact ih u

/-- After steps that work a run goes on where they lead. -/
theorem run_add_of_steps (h : w.steps k = (.ok (), u)) (m : Nat) : w.run (k + m) = u.run m := by
  induction k generalizing w with
  | zero =>
    cases h
    rw [Nat.zero_add]
  | succ k ih =>
    rw [steps] at h
    split at h
    · rename_i v hv
      rw [Nat.add_right_comm, run_succ_of_next hv]
      exact ih h
    · cases h

/-- The run comes to its end after `n` steps, in the world `v`. -/
structure EndsAfter (w : World) (n : Nat) (v : World) : Prop where
  steps_eq : w.steps n = (.ok (), v)
  isFinished : v.machine.isFinished = true

/-- A run that comes to its end does so after some number of steps. -/
theorem exists_endsAfter_of_run (h : w.run m = .finished v) : ∃ n ≤ m, w.EndsAfter n v := by
  induction m generalizing w with
  | zero =>
    rw [run] at h
    split at h <;> cases h
    exact ⟨0, Nat.le_refl 0, rfl, ‹_›⟩
  | succ m ih =>
    rw [run] at h
    split at h
    · cases h
      exact ⟨0, Nat.zero_le _, rfl, ‹_›⟩
    · split at h
      · rename_i u hu
        obtain ⟨n, hn, hend⟩ := ih h
        refine ⟨n + 1, Nat.succ_le_succ hn, ?_, hend.isFinished⟩
        rw [steps_succ_of_next hu]
        exact hend.steps_eq
      · cases h

namespace EndsAfter

/-- After some of the steps, the others are left. -/
theorem after (h : w.EndsAfter n v) (hk : k ≤ n) :
    ∃ u, w.steps k = (.ok (), u) ∧ u.EndsAfter (n - k) v := by
  have hsteps := h.steps_eq
  rw [← Nat.add_sub_of_le hk, steps_add] at hsteps
  rcases hu : w.steps k with ⟨f | ⟨⟩, u⟩
  · rw [hu] at hsteps
    cases hsteps
  · rw [hu] at hsteps
    exact ⟨u, rfl, hsteps, h.isFinished⟩

/-- One step more than there are is refused, and the world is left as it was. -/
theorem steps_of_lt (h : w.EndsAfter n v) (hk : n < k) :
    w.steps k = (.error v.machine.endFault, v) := by
  obtain ⟨j, rfl⟩ : ∃ j, k = n + (j + 1) := ⟨k - n - 1, by omega⟩
  rw [steps_add, h.steps_eq]
  change v.steps (j + 1) = _
  rw [steps, advance_of_isFinished h.isFinished]

/-- A run with enough steps comes to the end. -/
theorem run_of_le (h : w.EndsAfter n v) (hm : n ≤ m) : w.run m = .finished v := by
  induction n generalizing w m with
  | zero =>
    obtain ⟨hsteps, hfinished⟩ := h
    cases hsteps
    exact run_of_isFinished hfinished m
  | succ n ih =>
    obtain ⟨m, rfl⟩ : ∃ j, m = j + 1 := ⟨m - 1, by omega⟩
    obtain ⟨u, hu, hend⟩ := h.after (k := 1) (by omega)
    have hnext : w.Next u := by
      rw [steps] at hu
      split at hu
      · rename_i x hx
        cases hu
        exact hx
      · cases hu
    rw [run_succ_of_next hnext]
    exact ih hend (Nat.le_of_succ_le_succ hm)

end EndsAfter

/-- **Stepping and running agree.**  Let a run come to its end: it has made a number `n` of steps,
and with fewer it is not over.  Make any number `k` of single steps, up to the first that is
refused, and run on from there: the run ends in the same world, with the same machine and frames,
the same entries in the trace and the same lines.  None of the first `n` steps is refused; the next
one is, because the program has ended or, behind its end, because there is no instruction, and it
changes nothing. -/
theorem run_in_parts (h : w.run m = .finished v) :
    ∃ n ≤ m, (∀ j < n, ∃ x, w.run j = .unfinished x) ∧ ∀ k,
      (∀ j, n ≤ k + j → (w.steps k).2.run j = .finished v) ∧
      (k ≤ n → (w.steps k).1 = .ok ()) ∧
      (n < k → ∃ f, w.steps k = (.error f, v) ∧
        (v.machine.position = v.machine.size → f = .endOfProgram) ∧
        (v.machine.size < v.machine.position → ∃ cause, f = .noInstruction cause)) := by
  obtain ⟨n, hn, hend⟩ := exists_endsAfter_of_run h
  refine ⟨n, hn, fun j hj => exists_run_eq_unfinished hend.steps_eq hj, fun k => ?_⟩
  obtain hk | hk := Nat.lt_or_ge n k
  · have hsteps := hend.steps_of_lt hk
    refine ⟨fun j _ => ?_, fun hle => absurd hk (Nat.not_lt.2 hle), fun _ => ?_⟩
    · rw [hsteps]
      exact run_of_isFinished hend.isFinished j
    · refine ⟨_, hsteps, fun hp => ?_, fun hp => ?_⟩
      · rw [Machine.endFault, if_pos hp]
      · rw [Machine.endFault, if_neg (Int.ne_of_gt hp)]
        exact ⟨_, rfl⟩
  · obtain ⟨u, hu, hrest⟩ := hend.after hk
    rw [hu]
    exact ⟨fun j hj => hrest.run_of_le (by omega), fun _ => rfl,
      fun hlt => absurd hlt (Nat.not_lt.2 hk)⟩

/-- A jump to the right leads behind the end of the program, where a third step finds no
instruction. -/
theorem run_in_parts_behind_end :
    let w : World := { machine := { Machine.load "+?".toList with mode := .int 27 } }
    ∃ v, w.run 2 = .finished v ∧ v.machine.position = 3 ∧ (w.steps 1).2.run 1 = .finished v ∧
      ∃ cause, w.steps 3 = (.error (.noInstruction cause), v) := by
  intro w
  have hok : (w.steps 2).1.isOk = true := by decide +kernel
  have hends : (w.steps 2).2.machine.position = 3 ∧ (w.steps 2).2.machine.size = 2 := by
    decide +kernel
  rcases hs : w.steps 2 with ⟨f | ⟨⟩, v⟩
  · rw [hs] at hok
    cases hok
  · rw [hs] at hends
    obtain ⟨hposition, hsize⟩ := hends
    have hend : w.EndsAfter 2 v := ⟨hs, by rw [Machine.isFinished, hposition, hsize]; rfl⟩
    have hrun := hend.run_of_le (Nat.le_refl 2)
    obtain ⟨n, hn, -, hparts⟩ := run_in_parts hrun
    obtain ⟨f, hsteps, -, hbehind⟩ := (hparts 3).2.2 (Nat.lt_succ_of_le hn)
    obtain ⟨cause, rfl⟩ := hbehind (by rw [hposition, hsize]; decide)
    exact ⟨v, hrun, hposition, (hparts 1).1 1 hn, cause, hsteps⟩

end World

end TapeMachine
