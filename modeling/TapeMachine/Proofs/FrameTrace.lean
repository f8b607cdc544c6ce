import TapeMachine.Proofs.Confinement
import TapeMachine.Proofs.Run

/-!
# The frames as a trace

Every step that works leaves a frame, which is made inside the step: after the operator has acted
and before the machine moves on.  So a frame shows the tape, the pointer, the buffer, the mode and
the loops as they are after the step, next to the position of the instruction that was executed, and
its target, if it is not zero, is where the machine went (`Frame.Records`).  The stack of frames is
therefore a faithful trace of the run, from which every state of the run can be read off
(`World.frames_trace`).
-/

namespace TapeMachine

open Exec

namespace Frame

/-- Where the machine goes after the step of the frame.  Position zero is no target. -/
def nextPosition (f : Frame) : Int :=
  match f.target with
  | none => f.position + 1
  | some p => if p = 0 then f.position + 1 else p

/-- The frame records a step of the program from the state `s` to the state `t`. -/
structure Records (f : Frame) (program : List Char) (s t : State) : Prop where
  cells_eq : f.cells = t.cells
  pointer_eq : f.pointer = t.pointer
  buffer_eq : f.buffer = t.buffer
  mode_eq : f.mode = t.mode
  dead_eq : f.deadDepth = t.deadDepth
  loops_eq : f.loops = t.loops
  symbol_eq : f.symbol = t.symbol
  /-- The position is that of the instruction. -/
  position_eq : f.position = s.position
  /-- The symbol is the instruction at that position. -/
  symbol_at : ∃ ch, Index.get program f.position = .ok ch ∧ f.symbol = some (String.singleton ch)
  /-- The target, or else the position, says where the machine goes. -/
  next_eq : f.nextPosition = t.position

variable {f : Frame}

theorem nextPosition_eq (f : Frame) : f.nextPosition = (moveOn f.toState).position := by
  unfold nextPosition moveOn
  cases ht : f.target with
  | none => rfl
  | some p =>
    by_cases hp : p = 0
    · subst hp
      rfl
    · simp only [hp, ↓reduceIte]

/-- A frame that was made before the machine moved on records the step. -/
theorem records_of_moveOn {program : List Char} {s : State} {ch : Char}
    (hpos : f.position = s.position) (hget : Index.get program s.position = .ok ch)
    (hsym : f.symbol = some (String.singleton ch)) : f.Records program s (moveOn f.toState) := by
  have hnext := f.nextPosition_eq
  obtain ⟨p, t, hm⟩ := exists_moveOn_eq f.toState
  rw [hm] at hnext ⊢
  exact
    { cells_eq := rfl
      pointer_eq := rfl
      buffer_eq := rfl
      mode_eq := rfl
      dead_eq := rfl
      loops_eq := rfl
      symbol_eq := rfl
      position_eq := hpos
      symbol_at := ⟨ch, hpos ▸ hget, hsym⟩
      next_eq := hnext }

end Frame

theorem State.toState_frameFor (s : State) (why : Option Idle) : (s.frameFor why).toState = s := by
  cases why <;> rfl

namespace World

variable {w w' : World}

/-- A step leaves one frame, made where the machine is about to move on. -/
theorem exists_frame_of_next (h : w.Next w') :
    ∃ f : Frame, w'.machine.frames = w.machine.frames.push f ∧
      w'.machine.toState = moveOn f.toState ∧
      f.Records w.machine.program w.machine.toState w'.machine.toState := by
  obtain ⟨o, c, why, v, hi, -, ha, rfl⟩ := advance_eq_ok_iff.1 h
  obtain ⟨-, hframes, hpos, hsym⟩ := Operator.fixed_of_act ha
  have hstate := v.machine.toState_frameFor why
  have hafter : (v.completed (o.leavesFrame w.machine.toState) why).machine.toState =
      moveOn (v.machine.frameFor why).toState := by
    rw [hstate]
    rfl
  refine ⟨v.machine.frameFor why, ?_, hafter, ?_⟩
  · change v.machine.frames.push _ = _
    rw [hframes]
    rfl
  · rw [hafter]
    refine Frame.records_of_moveOn ?_ (Machine.get_of_instruction_eq_ok hi) ?_
    · rw [hstate, hpos]
      rfl
    · rw [hstate, hsym]
      rfl

/-- The state in which the first `k` steps leave the machine. -/
def stateAt (w : World) (k : Nat) : State := (w.steps k).2.machine.toState

/-- What holds of the frames that the first `n` steps from `w` leave on an empty stack. -/
structure Traced (w : World) (n : Nat) : Prop where
  program_eq : (w.steps n).2.machine.program = w.machine.program
  size_le : (w.steps n).2.machine.frames.size ≤ n
  /-- There are as many frames as steps that worked. -/
  isOk_iff : ∀ k ≤ n, (w.steps k).1.isOk ↔ k ≤ (w.steps n).2.machine.frames.size
  /-- Each frame was made where the machine was about to move on. -/
  stateAt_succ : ∀ (k : Nat) (f : Frame), (w.steps n).2.machine.frames[k]? = some f →
    w.stateAt (k + 1) = moveOn f.toState
  /-- Each frame records its step. -/
  records : ∀ (k : Nat) (f : Frame), (w.steps n).2.machine.frames[k]? = some f →
    f.Records w.machine.program (w.stateAt k) (w.stateAt (k + 1))

theorem traced_zero (hw : w.machine.frames = #[]) : w.Traced 0 where
  program_eq := rfl
  size_le := by simp [steps, hw]
  isOk_iff := by
    intro k hk
    obtain rfl := Nat.le_zero.1 hk
    simp [steps]
  stateAt_succ := by
    intro k f hf
    simp [steps, hw] at hf
  records := by
    intro k f hf
    simp [steps, hw] at hf

namespace Traced

variable {n : Nat}

/-- A step that is not made, or that ends in a fault, leaves no frame. -/
theorem of_fault (h : w.Traced n) (hbad : (w.steps (n + 1)).1.isOk = false)
    (hprog : (w.steps (n + 1)).2.machine.program = (w.steps n).2.machine.program)
    (hframes : (w.steps (n + 1)).2.machine.frames = (w.steps n).2.machine.frames) :
    w.Traced (n + 1) where
  program_eq := hprog.trans h.program_eq
  size_le := by
    rw [hframes]
    exact Nat.le_succ_of_le h.size_le
  isOk_iff := by
    intro k hk
    rw [hframes]
    obtain hk | rfl := Nat.le_succ_iff.1 hk
    · exact h.isOk_iff k hk
    · have hle := h.size_le
      rw [hbad]
      constructor
      · intro hf
        cases hf
      · intro hlt
        omega
  stateAt_succ := by
    rw [hframes]
    exact h.stateAt_succ
  records := by
    rw [hframes]
    exact h.records

theorem size_eq (h : w.Traced n) (hok : (w.steps n).1.isOk = true) :
    (w.steps n).2.machine.frames.size = n :=
  Nat.le_antisymm h.size_le ((h.isOk_iff n (Nat.le_refl n)).1 hok)

/-- A step that works leaves its frame on top of the others. -/
theorem of_next (h : w.Traced n) {v v' : World} (hn : w.steps n = (.ok (), v)) (hnext : v.Next v')
    (hn' : w.steps (n + 1) = (.ok (), v')) : w.Traced (n + 1) := by
  obtain ⟨f, hframes, hstate, hrec⟩ := exists_frame_of_next hnext
  have hsize : v.machine.frames.size = n := by
    have := h.size_eq (by rw [hn]; rfl)
    rwa [hn] at this
  have hat : w.stateAt n = v.machine.toState := by rw [stateAt, hn]
  have hat' : w.stateAt (n + 1) = v'.machine.toState := by rw [stateAt, hn']
  have hprog : v.machine.program = w.machine.program := by
    have := h.program_eq
    rwa [hn] at this
  -- Below the new frame the stack is that of the steps before.
  have hold : ∀ k g, v'.machine.frames[k]? = some g →
      v.machine.frames[k]? = some g ∨ k = n ∧ g = f := by
    intro k g hg
    rw [hframes, Array.getElem?_push, hsize] at hg
    split at hg
    · rename_i hk
      exact .inr ⟨hk, (Option.some.inj hg).symm⟩
    · exact .inl hg
  refine ⟨?_, ?_, ?_, ?_, ?_⟩
  · rw [hn']
    exact (program_of_next hnext).trans hprog
  · rw [hn']
    simp [hframes, hsize]
  · intro k hk
    rw [hn', hframes, Array.size_push, hsize]
    obtain hk | rfl := Nat.le_succ_iff.1 hk
    · have := h.isOk_iff k hk
      rw [hn, hsize] at this
      rw [this]
      omega
    · simp [hn']
  · intro k g hg
    rw [hn'] at hg
    obtain hg | ⟨rfl, rfl⟩ := hold k g hg
    · exact h.stateAt_succ k g (by rw [hn]; exact hg)
    · rw [hat', hstate]
  · intro k g hg
    rw [hn'] at hg
    obtain hg | ⟨rfl, rfl⟩ := hold k g hg
    · exact h.records k g (by rw [hn]; exact hg)
    · rw [hat, hat', ← hprog]
      exact hrec

theorem succ (h : w.Traced n) : w.Traced (n + 1) := by
  have hlast := w.steps_succ_last n
  rcases hn : w.steps n with ⟨e | _, v⟩
  · -- The run is over already.
    rw [hn] at hlast
    refine h.of_fault ?_ ?_ ?_
    · rw [hlast]; rfl
    · rw [hlast, hn]
    · rw [hlast, hn]
  · rw [hn] at hlast
    rcases ha : advance.on v with ⟨e | _, v'⟩
    · obtain ⟨symbol, buffer, hm, -⟩ := machine_of_advance_eq_error ha
      have hstop : w.steps (n + 1) = (.error e, v') := hlast.trans ha
      refine h.of_fault ?_ ?_ ?_
      · rw [hstop]; rfl
      · rw [hstop, hn, hm]
      · rw [hstop, hn, hm]
    · exact h.of_next hn ha (hlast.trans ha)

end Traced

theorem traced (lines : Lines) (program : String) (n : Nat) : (load lines program).Traced n := by
  induction n with
  | zero => exact traced_zero rfl
  | succ n ih => exact ih.succ

/-- The states of a run can be read off its frames. -/
theorem stateAt_eq_of_frames {lines lines' : Lines} {program program' : String} {n n' : Nat}
    (h : ((load lines' program').steps n').2.machine.frames =
      ((load lines program).steps n).2.machine.frames) {k : Nat}
    (hk : k ≤ ((load lines program).steps n).2.machine.frames.size) :
    (load lines' program').stateAt k = (load lines program).stateAt k := by
  cases k with
  | zero => rfl
  | succ k =>
    obtain ⟨f, hf⟩ : ∃ f, ((load lines program).steps n).2.machine.frames[k]? = some f :=
      ⟨_, Array.getElem?_eq_getElem hk⟩
    have hleft := (traced lines' program' n').stateAt_succ k f (by rw [h]; exact hf)
    have hright := (traced lines program n).stateAt_succ k f hf
    rw [hleft, hright]

/-- **The frames are a faithful trace of the run.**  However a run of at most `n` steps ends, it has
left as many frames as it made steps.  The frame of each step shows the tape, the pointer, the
buffer, the mode, the loops and the instruction as the step left them, and the position at which
that instruction stands; the next frame stands at the target of this one, or behind it if it has
none or zero.  So two runs that leave the same frames have gone through the same states. -/
theorem frames_trace (lines : Lines) (program : String) (n : Nat) :
    let start := load lines program
    let frames := (start.run n).world.machine.frames
    (frames.size ≤ n ∧ ∀ k ≤ n, (start.steps k).1.isOk ↔ k ≤ frames.size) ∧
    (∀ (k : Nat) (f : Frame), frames[k]? = some f →
      f.Records program.toList (start.stateAt k) (start.stateAt (k + 1)) ∧
      ∀ g : Frame, frames[k + 1]? = some g → g.position = f.nextPosition) ∧
    ∀ lines' program' n', ((load lines' program').run n').world.machine.frames = frames →
      ∀ k ≤ frames.size, (load lines' program').stateAt k = start.stateAt k := by
  have h := traced lines program n
  simp only [world_run]
  refine ⟨⟨h.size_le, h.isOk_iff⟩, fun k f hf => ⟨h.records k f hf, fun g hg => ?_⟩,
    fun lines' program' n' heq k hk => stateAt_eq_of_frames heq hk⟩
  calc
    g.position = ((load lines program).stateAt (k + 1)).position :=
      (h.records (k + 1) g hg).position_eq
    _ = f.nextPosition := (h.records k f hf).next_eq.symm

/-- A loop that is entered once: the frame of its closing bracket leads back to the opening one. -/
theorem frames_trace_loop :
    let start := load {} "+[-]"
    let frames := (start.run 9).world.machine.frames
    frames.size = 7 ∧ ∃ f g : Frame, frames[3]? = some f ∧ frames[4]? = some g ∧
      f.target = some 1 ∧ f.Records "+[-]".toList (start.stateAt 3) (start.stateAt 4) ∧
      g.position = f.nextPosition := by
  have hsize : ((load {} "+[-]").run 9).world.machine.frames.size = 7 := by decide +kernel
  have htarget : (((load {} "+[-]").run 9).world.machine.frames[3]?).map
      (fun x : Frame => x.target) = some (some 1) := by decide +kernel
  have hlast : (((load {} "+[-]").run 9).world.machine.frames[4]?).isSome := by decide +kernel
  obtain ⟨f, hf, htarget⟩ := Option.map_eq_some_iff.1 htarget
  obtain ⟨g, hg⟩ := Option.isSome_iff_exists.1 hlast
  obtain ⟨hrec, hnext⟩ := (frames_trace {} "+[-]" 9).2.1 3 f hf
  exact ⟨hsize, f, g, hf, hg, htarget, hrec, hnext g hg⟩

end World

end TapeMachine
