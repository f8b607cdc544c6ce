import TapeMachine.Machine.Run
import TapeMachine.Proofs.Step
import Mathlib.Logic.Relation

/-!
# Steps and runs

`World.Next` is the relation between a world and the one that a step leaves.  A run makes such steps
until the program ends or a step ends in a fault: it goes on from wherever its steps have led
(`World.exists_run_add`), and however many steps it is given, it ends in one way only
(`World.run_unique`).
-/

namespace TapeMachine

open Exec Relation

theorem Machine.getElem?_of_instruction {m : Machine} {e : Nat} {ch : Char}
    (he : m.position = e) (h : m.instruction = .ok ch) : m.program[e]? = some ch := by
  have hget := get_of_instruction_eq_ok h
  rw [he] at hget
  exact Index.get_natCast_eq_ok_iff.1 hget

/-- At the end of the program, or past it, there is no instruction. -/
theorem Machine.exists_instruction_eq_error {m : Machine} (h : m.isFinished = true) :
    ∃ f, m.instruction = .error f := by
  rw [isFinished, decide_eq_true_iff, size] at h
  cases hi : m.instruction with
  | error f => exact ⟨f, rfl⟩
  | ok ch =>
    have := (Index.bounds_of_get (get_of_instruction_eq_ok hi)).2
    omega

/-- The world that a run leaves, however it ends. -/
def Verdict.world : Verdict → World
  | .finished w => w
  | .stopped _ w => w
  | .unfinished w => w

namespace World

/-- A step leads from `w` to `w'`. -/
def Next (w w' : World) : Prop := advance.on w = (.ok (), w')

variable {w u : World}

theorem program_of_next (h : w.Next u) : u.machine.program = w.machine.program := by
  obtain ⟨o, c, why, v, -, -, ha, rfl⟩ := advance_eq_ok_iff.1 h
  exact (Operator.program_frames_of_act ha).1

theorem steps_succ_of_next (hn : w.Next u) (k : Nat) : w.steps (k + 1) = u.steps k := by
  rw [steps, show advance.on w = (.ok (), u) from hn]

theorem not_isFinished_of_next (hn : w.Next u) : w.machine.isFinished = false := by
  obtain ⟨o, c, why, v, hi, -, -, -⟩ := advance_eq_ok_iff.1 hn
  have hlt := (Index.bounds_of_get (Machine.get_of_instruction_eq_ok hi)).2
  rw [Machine.isFinished, decide_eq_false_iff_not, Machine.size]
  omega

theorem run_succ_of_next (hn : w.Next u) (m : Nat) : w.run (m + 1) = u.run m := by
  rw [run, not_isFinished_of_next hn, show advance.on w = (.ok (), u) from hn]
  rfl

/-- After the steps to a world, a run goes on from there. -/
theorem exists_run_add (h : ReflTransGen Next w u) : ∃ k, ∀ m, w.run (k + m) = u.run m := by
  induction h using ReflTransGen.head_induction_on with
  | refl => exact ⟨0, fun m => by rw [Nat.zero_add]⟩
  | head hn _ ih =>
    obtain ⟨k, hk⟩ := ih
    refine ⟨k + 1, fun m => ?_⟩
    rw [Nat.add_right_comm, run_succ_of_next hn, hk]

/-- A run that can make `k` steps is not over after fewer. -/
theorem exists_run_eq_unfinished {k m : Nat} (h : w.steps k = (.ok (), u)) (hm : m < k) :
    ∃ x, w.run m = .unfinished x := by
  induction k generalizing w m with
  | zero => cases hm
  | succ k ih =>
    rw [steps] at h
    split at h
    · rename_i x hn
      cases m with
      | zero =>
        refine ⟨w, ?_⟩
        rw [run, not_isFinished_of_next hn]
        rfl
      | succ m =>
        rw [run_succ_of_next hn]
        exact ih h (Nat.lt_of_succ_lt_succ hm)
    · cases h

theorem run_of_isFinished (h : w.machine.isFinished = true) (n : Nat) :
    w.run n = .finished w := by
  cases n <;> rw [run, if_pos h]

/-- A run that has ended does not change when it is given more steps. -/
theorem run_eq_of_le {m n : Nat} (hmn : m ≤ n) (h : ∀ v, w.run m ≠ .unfinished v) :
    w.run n = w.run m := by
  induction m generalizing w n with
  | zero =>
    cases hf : w.machine.isFinished with
    | true => rw [run_of_isFinished hf, run_of_isFinished hf]
    | false => exact absurd (by rw [run, hf]; rfl) (h w)
  | succ m ih =>
    obtain ⟨n, rfl⟩ : ∃ k, n = k + 1 := ⟨n - 1, by omega⟩
    -- Both runs begin with the same step, if with any.
    rw [run] at h ⊢
    rw [run]
    split
    · rfl
    · rename_i hf
      rw [if_neg hf] at h
      split
      · rename_i u ha
        rw [ha] at h
        exact ih (Nat.le_of_succ_le_succ hmn) h
      · rfl

/-- However many steps a run is given, it ends in one way only. -/
theorem run_unique {m n : Nat} (hm : ∀ v, w.run m ≠ .unfinished v)
    (hn : ∀ v, w.run n ≠ .unfinished v) : w.run m = w.run n := by
  obtain h | h := Nat.le_total m n
  · exact (run_eq_of_le h hm).symm
  · exact run_eq_of_le h hn

/-- The last of several steps. -/
theorem steps_succ_last (w : World) (n : Nat) :
    w.steps (n + 1) = match w.steps n with
      | (.ok _, v) => advance.on v
      | (.error f, v) => (.error f, v) := by
  induction n generalizing w with
  | zero =>
    simp only [steps]
    rcases advance.on w with ⟨_ | _, v⟩ <;> rfl
  | succ n ih =>
    rw [steps]
    rcases ha : advance.on w with ⟨f | _, v⟩
    · simp only [steps, ha]
    · simp only [ih v]
      rw [steps, ha]

/-- A run leaves what as many steps leave: past the end of the program a step does nothing. -/
theorem world_run (w : World) (n : Nat) : (w.run n).world = (w.steps n).2 := by
  induction n generalizing w with
  | zero =>
    rw [run]
    split <;> rfl
  | succ n ih =>
    rw [run, steps]
    split
    · rename_i hf
      obtain ⟨f, hi⟩ := Machine.exists_instruction_eq_error hf
      rw [advance_eq_error_iff.2 (.inl ⟨hi, rfl⟩)]
      rfl
    · rcases advance.on w with ⟨f | _, v⟩
      · rfl
      · exact ih v

/-- A run that comes to its end makes steps until the position is at the end. -/
theorem reaches_of_run_eq_finished {n : Nat} (h : w.run n = .finished u) :
    ReflTransGen Next w u ∧ u.machine.isFinished = true := by
  induction n generalizing w with
  | zero =>
    unfold run at h
    split at h <;> cases h
    exact ⟨.refl, ‹_›⟩
  | succ n ih =>
    unfold run at h
    split at h
    · cases h
      exact ⟨.refl, ‹_›⟩
    · split at h
      · rename_i x hx
        obtain ⟨hr, hf⟩ := ih h
        exact ⟨.head hx hr, hf⟩
      · cases h

end World

end TapeMachine
