import TapeMachine.Proofs.LoopStack

/-!
# What can be seen of a world

A run leaves its tape, pointer, buffer and mode, the events on the lines, and the lines themselves:
an `Observation`.  The stack of loops, the position, the frames and the notes are not part of it.
An operator other than a bracket cannot tell apart two worlds of which the same can be seen, and
leaves two such worlds behind (`Operator.work_agree`).
-/

namespace TapeMachine

/-- What a run leaves to be seen. -/
structure Observation where
  /-- The tape. -/
  cells : List Cell
  /-- The number of the current cell. -/
  pointer : Int
  /-- The buffer. -/
  buffer : List UInt8
  /-- The mode. -/
  mode : Cell
  /-- The events on the lines, in order. -/
  events : List Event
  /-- The lines, with what is left to be read. -/
  lines : Lines
deriving DecidableEq

/-- What can be seen of a machine, with what happened on the lines. -/
def State.observe (s : State) (events : List Event) (lines : Lines) : Observation where
  cells := s.cells
  pointer := s.pointer
  buffer := s.buffer
  mode := s.mode
  events := events
  lines := lines

/-- What can be seen of a world. -/
def World.observe (w : World) : Observation := w.machine.observe w.events w.lines

namespace World

/-- The same can be seen of two worlds, and they have the same program. -/
structure Agree (w v : World) : Prop where
  cells_eq : w.machine.cells = v.machine.cells
  pointer_eq : w.machine.pointer = v.machine.pointer
  buffer_eq : w.machine.buffer = v.machine.buffer
  mode_eq : w.machine.mode = v.machine.mode
  events_eq : w.events = v.events
  lines_eq : w.lines = v.lines
  program_eq : w.machine.program = v.machine.program

variable {w v : World}

theorem events_append (w : World) (es : List Entry) :
    { w with trace := es ++ w.trace }.events = w.events ++ es.reverse.filterMap Entry.event? := by
  simp [events, history]

theorem events_noted (w : World) (n : Note) : (w.noted n).events = w.events :=
  (events_append w [.note n]).trans (List.append_nil _)

theorem events_started (w : World) (o : Operator) (c : Cell) :
    (w.started o c).events = w.events := by
  change ((w.noted _).noted _).events = w.events
  rw [events_noted, events_noted]

namespace Agree

theorem rfl : w.Agree w := ⟨.refl _, .refl _, .refl _, .refl _, .refl _, .refl _, .refl _⟩

theorem observe_eq (h : w.Agree v) : w.observe = v.observe := by
  simp only [observe, State.observe, h.cells_eq, h.pointer_eq, h.buffer_eq, h.mode_eq, h.events_eq,
    h.lines_eq]

theorem cell_eq (h : w.Agree v) : w.machine.cell = v.machine.cell := by
  simp only [State.cell, h.cells_eq, h.pointer_eq]

theorem noted (h : w.Agree v) (m n : Note) : (w.noted m).Agree (v.noted n) :=
  { h with events_eq := by rw [events_noted, events_noted, h.events_eq] }

theorem situation_eq (h : w.Agree v) (hp : w.machine.position = v.machine.position) (c : Cell) :
    w.situation c = v.situation c := by
  simp only [situation, h.pointer_eq, h.buffer_eq, h.lines_eq, h.program_eq, hp]

theorem put_eq (h : w.Agree v) (c : Cell) :
    (w.machine.put c).cells = (v.machine.put c).cells := by
  unfold State.put
  rw [h.cells_eq, h.pointer_eq]
  split
  · exact Eq.refl _
  · exact h.cells_eq

theorem apply (h : w.Agree v) (e : Effect) : (w.apply e).Agree (v.apply e) :=
  { h with
    cells_eq := by
      simp only [World.apply]
      split
      · exact h.put_eq _
      · exact h.cells_eq
    buffer_eq := Eq.refl _
    events_eq := by
      have hw := events_append w e.entries
      have hv := events_append v e.entries
      rw [h.events_eq] at hw
      exact hw.trans hv.symm
    lines_eq := Eq.refl _ }

end Agree

end World

/-- An operator other than a bracket does the same where the same can be seen. -/
theorem Operator.work_agree {o : Operator} (hb : o.isBracket = false) {w v : World}
    (h : w.Agree v) (hp : w.machine.position = v.machine.position) (c : Cell) :
    (o.work w c).1 = (o.work v c).1 ∧ (o.work w c).2.Agree (o.work v c).2 := by
  cases o with
  | beginLoop | endLoop => cases hb
  | advance =>
    simp only [work, h.pointer_eq, h.cells_eq]
    split
    · exact ⟨rfl, h⟩
    · exact ⟨rfl, { h with cells_eq := rfl, pointer_eq := rfl }⟩
  | retreat =>
    simp only [work, h.pointer_eq]
    split
    · exact ⟨rfl, h⟩
    · exact ⟨rfl, { h with pointer_eq := rfl }⟩
  | increment | decrement =>
    simp only [work]
    split
    · exact ⟨rfl, h⟩
    · split
      · exact ⟨rfl, h⟩
      · exact ⟨rfl, { h with cells_eq := h.put_eq _ }⟩
  | setMode => exact ⟨rfl, { h with mode_eq := rfl }⟩
  | operate =>
    simp only [work, h.mode_eq, hp, h.situation_eq hp c]
    split
    · exact ⟨rfl, h.noted _ _⟩
    · exact ⟨rfl, (h.noted _ _).apply _⟩

end TapeMachine
