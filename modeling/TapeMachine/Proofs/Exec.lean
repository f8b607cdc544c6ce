import TapeMachine.Machine.Step

/-!
# Carrying computations out

`Exec.on` carries a computation out on a world.  This file says what it gives for each way to build
a computation: for `pure`, `throw` and `>>=`, and for the machine's own primitives, which read and
change the tape, the buffer, the lines and the trace.  With these lemmas `simp` carries a
computation out symbolically, and no later proof opens the monad.

A store never fails where the current cell can be read (`State.set_cells_eq_ok`); what it leaves
there is `State.put`.
-/

namespace TapeMachine

namespace State

/-- The state with the current cell replaced; unchanged where there is none. -/
def put (s : State) (c : Cell) : State :=
  match Index.set s.cells s.pointer c with
  | .ok cs => { s with cells := cs }
  | .error _ => s

theorem cell_eq_ok_iff {s : State} {c : Cell} :
    s.cell = .ok c ↔ Index.get s.cells s.pointer = .ok c := by
  unfold cell
  cases Index.get s.cells s.pointer <;> simp

theorem set_cells_eq_ok {s : State} {c : Cell} (h : s.cell = .ok c) (d : Cell) :
    Index.set s.cells s.pointer d = .ok (s.put d).cells := by
  rw [cell_eq_ok_iff] at h
  unfold put
  unfold Index.get at h
  unfold Index.set
  split at h
  · simp only
  · cases h

end State

namespace Exec

variable {α β : Type}

/-! ### Results -/

section Results

variable {ε : Type}

@[simp] theorem isOk_ok (a : α) : (Except.ok a : Except ε α).isOk = true := rfl

@[simp] theorem isOk_error (e : ε) : (Except.error e : Except ε α).isOk = false := rfl

@[simp] theorem isOk_map (f : α → β) (r : Except ε α) : (r.map f).isOk = r.isOk := by
  cases r <;> rfl

end Results

/-! ### Building computations -/

/-- What follows a computation that has been carried out. -/
def resume (f : α → Exec β) : Except Fault α × World → Except Fault β × World
  | (.ok a, w) => (f a).on w
  | (.error e, w) => (.error e, w)

@[simp] theorem resume_ok (f : α → Exec β) (a : α) (w : World) :
    resume f (.ok a, w) = (f a).on w := rfl

@[simp] theorem resume_error (f : α → Exec β) (e : Fault) (w : World) :
    resume f (.error e, w) = (.error e, w) := rfl

@[simp] theorem on_pure (a : α) (w : World) : (pure a : Exec α).on w = (.ok a, w) := rfl

@[simp] theorem on_throw (f : Fault) (w : World) : (throw f : Exec α).on w = (.error f, w) := rfl

@[simp] theorem on_bind (x : Exec α) (f : α → Exec β) (w : World) :
    (x >>= f).on w = resume f (x.on w) := by
  simp only [on, ExceptT.run_bind, StateT.run_bind, resume]
  rcases StateT.run (ExceptT.run x) w with ⟨_ | _, _⟩ <;> rfl

@[simp] theorem on_map (f : α → β) (x : Exec α) (w : World) :
    (f <$> x).on w = resume (fun a => pure (f a)) (x.on w) := by
  rw [map_eq_pure_bind, on_bind]

@[simp] theorem on_get (w : World) : (get : Exec World).on w = (.ok w, w) := rfl

@[simp] theorem on_modify (f : World → World) (w : World) :
    (modify f : Exec Unit).on w = (.ok (), f w) := rfl

@[simp] theorem on_lift (r : Except Fault α) (w : World) : (lift r).on w = (r, w) := by
  cases r <;> rfl

/-! ### The machine's primitives -/

@[simp] theorem on_note (n : Note) (w : World) :
    (note n).on w = (.ok (), { w with trace := .note n :: w.trace }) := rfl

@[simp] theorem on_machine (w : World) : machine.on w = (.ok w.machine, w) := rfl

@[simp] theorem on_state (w : World) : state.on w = (.ok w.machine.toState, w) := rfl

@[simp] theorem on_updateMachine (f : Machine → Machine) (w : World) :
    (updateMachine f).on w = (.ok (), { w with machine := f w.machine }) := rfl

@[simp] theorem on_update (f : State → State) (w : World) :
    (update f).on w =
      (.ok (), { w with machine := { w.machine with toState := f w.machine.toState } }) := rfl

@[simp] theorem on_frame (w : World) : frame.on w = (.ok w.machine.frame, w) := rfl

@[simp] theorem on_idle (why : Idle) (w : World) :
    (idle why).on w = (.ok (w.machine.idleFrame why), w) := rfl

@[simp] theorem on_cell (w : World) : cell.on w = (w.machine.cell, w) := by
  simp [cell]

@[simp] theorem on_buffer (w : World) : buffer.on w = (.ok w.machine.buffer, w) := rfl

@[simp] theorem on_setBuffer (bs : List UInt8) (w : World) :
    (setBuffer bs).on w =
      (.ok (), { w with machine := { w.machine with buffer := bs } }) := rfl

@[simp] theorem on_jumpTo (p : Int) (w : World) :
    (Operation.jumpTo p).on w =
      (.ok (), { w with machine := { w.machine with target := some p } }) := rfl

@[simp] theorem on_hasWriter (ch : Channel) (w : World) :
    (hasWriter ch).on w = (.ok (w.lines.get ch).output, w) := rfl

@[simp] theorem on_write (ch : Channel) (x : Writing) (w : World) :
    (write ch x).on w = match (w.lines.get ch).refusal? x with
      | some f => (.error f, w)
      | none => (.ok (), { w with trace := .event (.wrote ch x.shown) :: w.trace }) := by
  simp only [write, on_bind, on_get, resume_ok]
  cases (w.lines.get ch).refusal? x <;> rfl

theorem on_store (d : Cell) (w : World) :
    (store d).on w = match Index.set w.machine.cells w.machine.pointer d with
      | .ok cs => (.ok (), { w with machine := { w.machine with cells := cs } })
      | .error f => (.error (.noStore f), w) := by
  simp only [store, on_bind, on_state, resume_ok]
  cases Index.set w.machine.cells w.machine.pointer d <;> rfl

end Exec

end TapeMachine
