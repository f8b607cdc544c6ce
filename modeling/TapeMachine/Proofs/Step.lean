import TapeMachine.Proofs.Effect
import Mathlib.Tactic.Set

/-!
# What a step does

`Operator.act` gives what an operator does as a function of the world and the current cell, and
`World.step` does the same for a whole step: it fetches, evaluates, leaves a frame and moves on.
Carrying the computations out agrees with them (`Operator.on_perform`, `Exec.on_advance`).  From
there a step that worked and a step that ended in a fault can be taken apart
(`Exec.advance_eq_ok_iff`, `Exec.advance_eq_error_iff`); every invariant of a run is derived from
these two lemmas.
-/

namespace TapeMachine

open Exec Operation

namespace World

variable (w : World)

/-- The world with the state of its machine replaced. -/
def withState (s : State) : World := { w with machine := { w.machine with toState := s } }

/-- The world with a note added to its trace. -/
def noted (n : Note) : World := { w with trace := .note n :: w.trace }

end World

/-- The frame of a step that did nothing for the given reason, or of a step that worked. -/
def State.frameFor (s : State) : Option Idle → Frame
  | some why => s.idleFrame why
  | none => s.frame

namespace World

variable (w : World)

/-- A loop is opened at the current position. -/
def openLoop : World :=
  (w.noted (.loopBegun w.machine.position)).withState
    { w.machine.toState with loops := w.machine.position :: w.machine.loops }

/-- A loop is opened that is skipped. -/
def openDeadLoop : World :=
  w.openLoop.withState { w.openLoop.machine.toState with deadDepth := w.machine.deadDepth + 1 }

end World

namespace Operator

/-- What an operator does on a machine that is not dead and whose current cell is `c`: it ends in a
fault, or it works, or it does nothing for a reason. -/
def work (o : Operator) (w : World) (c : Cell) : Except Fault (Option Idle) × World :=
  let s := w.machine.toState
  match o with
  | .advance =>
    if s.pointer = s.cells.length then (.ok (some .atExtent), w)
    else (.ok none, w.withState { s with pointer := s.pointer + 1 })
  | .retreat =>
    if s.pointer = 0 then (.ok (some .atZero), w)
    else (.ok none, w.withState { s with pointer := s.pointer - 1 })
  | .increment =>
    match c with
    | .block _ => (.error .blockSum, w)
    | .int i =>
      if i = State.byteMax then (.ok (some .cellIsMax), w)
      else (.ok none, w.withState { s with cells := (s.put (.int (i + 1))).cells })
  | .decrement =>
    match c with
    | .block _ => (.error .blockDifference, w)
    | .int i =>
      if i = 0 then (.ok (some .cellIsZero), w)
      else (.ok none, w.withState { s with cells := (s.put (.int (i - 1))).cells })
  | .beginLoop =>
    if c = Cell.zero then (.ok (some .deadLoopBegun), w.openDeadLoop) else (.ok none, w.openLoop)
  | .endLoop =>
    match s.loops with
    | [] => (.error (.unmatchedClose s.position), w.noted (.warned (.unmatchedClose s.position)))
    | p :: ps => (.ok none, w.withState { s with loops := ps, target := some p })
  | .setMode => (.ok none, w.withState { s with mode := c })
  | .operate =>
    match Mode.ofCell? s.mode with
    | none =>
      (.error (.unknownMode s.mode s.position), w.noted (.warned (.unknownMode s.mode s.position)))
    | some m =>
      ((m.effect (w.situation c)).result.map fun _ => none,
        (w.noted (.operating m)).apply (m.effect (w.situation c)))

/-- What an operator does on a dead machine: only brackets count. -/
def skip (o : Operator) (w : World) : Except Fault (Option Idle) × World :=
  let s := w.machine.toState
  match o with
  | .beginLoop => (.ok (some .deadLoopBegun), w.openDeadLoop)
  | .endLoop =>
    match s.loops with
    | [] => (.error (.unmatchedClose s.position), w.noted (.warned (.unmatchedClose s.position)))
    | _ :: ps =>
      (.ok (some .deadLoopEnded), w.withState { s with loops := ps, deadDepth := s.deadDepth - 1 })
  | _ => (.ok (some .dead), w)

/-- What an operator does where the current cell is `c`. -/
def act (o : Operator) (w : World) (c : Cell) : Except Fault (Option Idle) × World :=
  if w.machine.isDead then o.skip w else o.work w c

theorem act_of_dead {o : Operator} {w : World} {c : Cell} (hd : w.machine.isDead = true) :
    o.act w c = o.skip w :=
  if_pos hd

theorem act_of_live {o : Operator} {w : World} {c : Cell} (hd : w.machine.isDead = false) :
    o.act w c = o.work w c :=
  if_neg (Bool.not_eq_true _ ▸ hd)

/-- The operator leaves a frame itself in the state `s`. -/
def leavesFrame (o : Operator) (s : State) : Bool :=
  match o with
  | .operate => s.isDead || (Mode.ofCell? s.mode).any Mode.leavesFrame
  | _ => true

/-- What is left by an operator: its result and the world. -/
def outcome (o : Operator) (w : World) (c : Cell) : Except Fault (Option Frame) × World :=
  match o.act w c with
  | (.ok why, w') =>
    (.ok (if o.leavesFrame w.machine.toState then some (w'.machine.frameFor why) else none), w')
  | (.error f, w') => (.error f, w')

/-- An operator changes neither the program, nor the frames, nor the position, nor the instruction
fetched last. -/
theorem fixed_of_act {o : Operator} {w v : World} {c : Cell} {r : Except Fault (Option Idle)}
    (ha : o.act w c = (r, v)) :
    v.machine.program = w.machine.program ∧ v.machine.frames = w.machine.frames ∧
      v.machine.position = w.machine.position ∧ v.machine.symbol = w.machine.symbol := by
  unfold act at ha
  split at ha
  · cases o with
    | endLoop =>
      simp only [skip] at ha
      split at ha <;> cases ha <;> exact ⟨rfl, rfl, rfl, rfl⟩
    | _ => cases ha; exact ⟨rfl, rfl, rfl, rfl⟩
  · cases o with
    | setMode => cases ha; exact ⟨rfl, rfl, rfl, rfl⟩
    | increment | decrement =>
      simp only [work] at ha
      split at ha
      · cases ha; exact ⟨rfl, rfl, rfl, rfl⟩
      · split at ha <;> cases ha <;> exact ⟨rfl, rfl, rfl, rfl⟩
    | _ =>
      simp only [work] at ha
      split at ha <;> cases ha <;> exact ⟨rfl, rfl, rfl, rfl⟩

theorem program_frames_of_act {o : Operator} {w v : World} {c : Cell}
    {r : Except Fault (Option Idle)} (ha : o.act w c = (r, v)) :
    v.machine.program = w.machine.program ∧ v.machine.frames = w.machine.frames :=
  ⟨(fixed_of_act ha).1, (fixed_of_act ha).2.1⟩

theorem eq_none_of_act {o : Operator} {w w' : World} {c : Cell} {why : Option Idle}
    (ha : o.act w c = (.ok why, w')) (hf : o.leavesFrame w.machine.toState = false) :
    why = none := by
  cases o with
  | operate =>
    simp only [leavesFrame, Bool.or_eq_false_iff] at hf
    simp only [act, hf.1, work, Bool.false_eq_true, ↓reduceIte] at ha
    split at ha
    · cases ha
    · cases hr : (Mode.effect _ (w.situation c)).result <;> rw [hr] at ha <;> cases ha
      rfl
  | _ => cases hf

theorem on_unlessDead (work : Exec (Option Frame)) (w : World) :
    (unlessDead work).on w =
      if w.machine.isDead then (.ok (some (w.machine.idleFrame .dead)), w) else work.on w := by
  simp only [unlessDead, on_bind, on_state, resume_ok]
  split <;> simp

theorem on_perform_of_dead (o : Operator) {w : World} {c : Cell} (hd : w.machine.isDead = true) :
    o.perform.on w = o.outcome w c := by
  cases o with
  | beginLoop =>
    simp [perform, Operation.beginLoop, hd, outcome, act, skip, leavesFrame, State.frameFor,
      World.openDeadLoop, World.openLoop, World.withState, World.noted]
  | endLoop =>
    cases hl : w.machine.loops <;>
      simp [perform, Operation.endLoop, hd, hl, outcome, act, skip, leavesFrame, State.frameFor,
        World.withState, World.noted]
  | advance | retreat | increment | decrement | setMode | operate =>
    simp [perform, on_unlessDead, hd, outcome, act, skip, leavesFrame, State.frameFor]

theorem on_operate {w : World} {c : Cell} (hd : w.machine.isDead = false)
    (h : w.machine.cell = .ok c) : Operation.operate.on w = outcome .operate w c := by
  cases hm : Mode.ofCell? w.machine.mode with
  | none => simp [Operation.operate, hm, hd, outcome, act, work, World.noted]
  | some m =>
    have hp := m.on_perform (w := w.noted (.operating m)) h
    have hs : (w.noted (.operating m)).situation c = w.situation c := rfl
    rw [hs] at hp
    simp only [Operation.operate, on_bind, on_state, resume_ok, hm, on_note, outcome, act, hd, work,
      leavesFrame, Bool.false_eq_true, ↓reduceIte, Bool.false_or, Option.any_some]
    rw [World.noted] at hp
    rw [hp]
    cases (m.effect (w.situation c)).result <;> rfl

theorem on_perform_of_live (o : Operator) {w : World} {c : Cell} (hd : w.machine.isDead = false)
    (h : w.machine.cell = .ok c) : o.perform.on w = o.outcome w c := by
  cases o with
  | advance =>
    by_cases hp : w.machine.pointer = w.machine.cells.length <;>
      simp [perform, on_unlessDead, advancePointer, hd, hp, outcome, act, work, leavesFrame,
        State.frameFor, World.withState]
  | retreat =>
    by_cases hp : w.machine.pointer = 0 <;>
      simp [perform, on_unlessDead, retreatPointer, hd, hp, outcome, act, work, leavesFrame,
        State.frameFor, World.withState]
  | increment =>
    cases c with
    | block bs => simp [perform, on_unlessDead, Operation.increment, h, hd, outcome, act, work]
    | int i =>
      by_cases hi : i = State.byteMax <;>
        simp [perform, on_unlessDead, Operation.increment, h, hd, hi, outcome, act, work,
          leavesFrame, State.frameFor, World.withState, on_store, State.set_cells_eq_ok h]
  | decrement =>
    cases c with
    | block bs => simp [perform, on_unlessDead, Operation.decrement, h, hd, outcome, act, work]
    | int i =>
      by_cases hi : i = 0 <;>
        simp [perform, on_unlessDead, Operation.decrement, h, hd, hi, outcome, act, work,
          leavesFrame, State.frameFor, World.withState, on_store, State.set_cells_eq_ok h]
  | beginLoop =>
    rw [State.cell_eq_ok_iff] at h
    by_cases hc : c = Cell.zero <;>
      simp [perform, Operation.beginLoop, State.cell, h, hd, hc, outcome, act, work, leavesFrame,
        State.frameFor, World.openDeadLoop, World.openLoop, World.withState, World.noted]
  | endLoop =>
    cases hl : w.machine.loops <;>
      simp [perform, Operation.endLoop, hd, hl, outcome, act, work, leavesFrame, State.frameFor,
        World.withState, World.noted]
  | setMode =>
    simp [perform, on_unlessDead, Operation.setMode, h, hd, outcome, act, work, leavesFrame,
      State.frameFor, World.withState]
  | operate =>
    rw [perform, on_unlessDead]
    simp only [hd, Bool.false_eq_true, ↓reduceIte]
    exact on_operate hd h

/-- **What an operator does.** -/
theorem on_perform (o : Operator) {w : World} {c : Cell} (h : w.machine.cell = .ok c) :
    o.perform.on w = o.outcome w c := by
  cases hd : w.machine.isDead
  · exact o.on_perform_of_live hd h
  · exact o.on_perform_of_dead hd

end Operator

/-! ### A step -/

/-- The instruction at the current position. -/
def Machine.instruction (m : Machine) : Except Fault Char :=
  if m.position = m.size then .error .endOfProgram
  else match Index.get m.program m.position with
    | .ok ch => .ok ch
    | .error f => .error (.noInstruction f)

theorem Machine.get_of_instruction_eq_ok {m : Machine} {ch : Char} (h : m.instruction = .ok ch) :
    Index.get m.program m.position = .ok ch := by
  unfold instruction at h
  split at h
  · cases h
  · split at h <;> cases h
    assumption

theorem Machine.instruction_of_get {m : Machine} {ch : Char}
    (h : Index.get m.program m.position = .ok ch) : m.instruction = .ok ch := by
  have hlt := (Index.bounds_of_get h).2
  unfold instruction
  rw [if_neg (by rw [Machine.size]; omega), h]

/-- The mode whose operation the next step carries out, if it carries out any. -/
def Machine.operation? (m : Machine) : Option Mode :=
  if m.isDead = false ∧ m.instruction.toOption = some Operator.operate.symbol ∧ m.cell.isOk then
    Mode.ofCell? m.mode
  else none

theorem Machine.operation?_eq {m : Machine} {c : Cell} (hd : m.isDead = false)
    (hi : m.instruction = .ok Operator.operate.symbol) (hc : m.cell = .ok c) :
    m.operation? = Mode.ofCell? m.mode := by
  unfold operation?
  rw [if_pos]
  exact ⟨hd, by rw [hi]; rfl, by rw [hc]; rfl⟩

namespace World

variable (w : World)

/-- The world in which an instruction was fetched. -/
def fetched (ch : Char) : World :=
  (w.noted (.fetched (String.singleton ch))).withState
    { w.machine.toState with symbol := some (String.singleton ch) }

/-- The world in which the evaluation of an operator is noted. -/
def evaluating (o : Operator) (c : Cell) : World :=
  w.noted (.evaluating o c w.machine.buffer.length w.machine.position)

/-- The world in which an operator was fetched and is about to act. -/
def started (o : Operator) (c : Cell) : World := (w.fetched o.symbol).evaluating o c

/-- The world in which the frame of an operator is left. -/
def framed (left : Bool) (why : Option Idle) : World :=
  { w.noted (.evaluated left) with
    machine := { w.machine with
      frames := w.machine.frames.push (w.machine.frameFor why) } }

/-- The world after an operator has acted: its frame is left and the machine moves on. -/
def completed (left : Bool) (why : Option Idle) : World :=
  (w.framed left why).withState (moveOn w.machine.toState)

/-- One step of the program. -/
def step : Except Fault Unit × World :=
  match w.machine.instruction with
  | .error f => (.error f, w)
  | .ok ch =>
    match Operator.ofSymbol? ch with
    | none => (.error .unknownOperator, w.fetched ch)
    | some o =>
      match w.machine.cell with
      | .error f => (.error f, w.fetched ch)
      | .ok c =>
        match o.act (w.started o c) c with
        | (.error f, w') => (.error f, w')
        | (.ok why, w') => (.ok (), w'.completed (o.leavesFrame w.machine.toState) why)

end World

theorem Operator.symbol_of_ofSymbol? {ch : Char} {o : Operator} (h : ofSymbol? ch = some o) :
    o.symbol = ch := by
  unfold ofSymbol? at h
  split at h <;> cases h <;> rfl

@[simp] theorem Operator.ofText?_singleton (ch : Char) :
    ofText? (String.singleton ch) = ofSymbol? ch := by
  simp [ofText?]

namespace Exec

theorem on_fetch (w : World) :
    fetch.on w = (w.machine.instruction.map String.singleton, w) := by
  unfold Machine.instruction
  by_cases hp : w.machine.position = w.machine.size
  · simp [fetch, hp, Except.map]
  · cases hi : Index.get w.machine.program w.machine.position <;> simp [fetch, hp, hi, Except.map]

theorem on_evaluate {o : Operator} {c : Cell} {w : World} (hc : w.machine.cell = .ok c) :
    (evaluate (String.singleton o.symbol)).on w =
      match o.act (w.evaluating o c) c with
      | (.error f, w') => (.error f, w')
      | (.ok why, w') => (.ok (w'.machine.frameFor why),
          w'.framed (o.leavesFrame w.machine.toState) why) := by
  set v := w.evaluating o c with hv
  have hp : o.perform.on v = o.outcome v c := o.on_perform hc
  simp only [evaluate, Operator.ofText?_singleton, Operator.ofSymbol?_symbol, on_bind, on_cell, hc,
    resume_ok, on_state, on_note]
  rw [World.evaluating, World.noted] at hv
  rw [← hv, hp]
  unfold Operator.outcome
  rcases ha : o.act v c with ⟨_ | why, w'⟩
  · rfl
  · cases hf : o.leavesFrame w.machine.toState with
    | true => simp [hv, hf, World.framed, World.noted]
    | false =>
      -- The frame is left on behalf of the operator, which can only have worked.
      obtain rfl := Operator.eq_none_of_act ha hf
      simp [hv, hf, World.framed, World.noted, State.frameFor]

/-- **What a step does.** -/
theorem on_advance (w : World) : advance.on w = w.step := by
  simp only [advance, on_bind, on_fetch]
  unfold World.step
  cases w.machine.instruction with
  | error f => rfl
  | ok ch =>
    simp only [Except.map, resume_ok]
    rw [on_bind, on_update, resume_ok, on_bind, on_note, resume_ok, on_bind]
    change resume _ ((evaluate (String.singleton ch)).on (w.fetched ch)) = _
    cases ho : Operator.ofSymbol? ch with
    | none => simp [evaluate, ho]
    | some o =>
      obtain rfl := Operator.symbol_of_ofSymbol? ho
      cases hc : w.machine.cell with
      | error f =>
        have hc' : (w.fetched o.symbol).machine.cell = .error f := hc
        simp [evaluate, hc']
      | ok c =>
        have he := on_evaluate (o := o) (w := w.fetched o.symbol) hc
        rcases ha : o.act (w.started o c) c with ⟨_ | why, w'⟩
        all_goals
          rw [World.started] at ha
          rw [he, ha]
          simp only [World.started, ha]
          rfl

/-- Moving on changes the position and the target only. -/
theorem exists_moveOn_eq (s : State) :
    ∃ p t, moveOn s = { s with position := p, target := t } := by
  unfold moveOn
  split <;> exact ⟨_, _, rfl⟩

theorem advance_eq_ok_iff {w w' : World} :
    advance.on w = (.ok (), w') ↔
      ∃ o c why v, w.machine.instruction = .ok (Operator.symbol o) ∧ w.machine.cell = .ok c ∧
        o.act (w.started o c) c = (.ok why, v) ∧
        w' = v.completed (o.leavesFrame w.machine.toState) why := by
  rw [on_advance]
  constructor
  · intro h
    unfold World.step at h
    split at h
    · cases h
    · rename_i ch hi
      split at h
      · cases h
      · rename_i o ho
        obtain rfl := Operator.symbol_of_ofSymbol? ho
        split at h
        · cases h
        · rename_i c hc
          split at h
          · cases h
          · rename_i why v ha
            cases h
            exact ⟨o, c, why, v, hi, hc, ha, rfl⟩
  · rintro ⟨o, c, why, v, hi, hc, ha, rfl⟩
    simp [World.step, hi, hc, ha]

theorem advance_eq_error_iff {w w' : World} {f : Fault} :
    advance.on w = (.error f, w') ↔
      (w.machine.instruction = .error f ∧ w' = w) ∨
      (∃ ch, w.machine.instruction = .ok ch ∧ w' = w.fetched ch ∧
        (Operator.ofSymbol? ch = none ∧ f = .unknownOperator ∨
          (Operator.ofSymbol? ch).isSome ∧ w.machine.cell = .error f)) ∨
      ∃ o c, w.machine.instruction = .ok (Operator.symbol o) ∧ w.machine.cell = .ok c ∧
        o.act (w.started o c) c = (.error f, w') := by
  rw [on_advance]
  constructor
  · intro h
    unfold World.step at h
    split at h
    · rename_i hi
      cases h
      exact .inl ⟨hi, rfl⟩
    · rename_i ch hi
      split at h
      · rename_i ho
        cases h
        exact .inr (.inl ⟨ch, hi, rfl, .inl ⟨ho, rfl⟩⟩)
      · rename_i o ho
        split at h
        · rename_i hc
          cases h
          exact .inr (.inl ⟨ch, hi, rfl, .inr ⟨by simp [ho], hc⟩⟩)
        · rename_i c hc
          obtain rfl := Operator.symbol_of_ofSymbol? ho
          split at h
          · rename_i ha
            cases h
            exact .inr (.inr ⟨o, c, hi, hc, ha⟩)
          · cases h
  · rintro (⟨hi, rfl⟩ | ⟨ch, hi, rfl, ⟨ho, rfl⟩ | ⟨ho, hc⟩⟩ | ⟨o, c, hi, hc, ha⟩)
    · simp [World.step, hi]
    · simp [World.step, hi, ho]
    · obtain ⟨o, ho⟩ := Option.isSome_iff_exists.1 ho
      simp [World.step, hi, ho, hc]
    · simp [World.step, hi, hc, ha]

end Exec

end TapeMachine
