import TapeMachine.Proofs.Inquiry
import TapeMachine.Proofs.Observation

/-!
# The course of a run

The course of a run are the worlds in which it makes its steps, the one in which it stops with a
fault included.  What a run leaves on its lines and what happened there is put together from what
each of these steps does: a step takes one reply off the line that its operation listens to
(`World.lines_step`), hence a run takes off as many as there are such steps (`World.lines_run`), and
the events of a run are those of its steps in order (`World.events_run`).

An operation on a channel to which nothing is attached does nothing (`World.next_of_detached`).
-/

namespace TapeMachine

open Exec

/-! ### Operations on a line -/

theorem Line.drop_of_input_eq_none {l : Line} (h : l.input = none) (k : Nat) : l.drop k = l := by
  obtain ⟨input, output⟩ := l
  obtain rfl : input = none := h
  rfl

theorem Lines.drop_once_of_detached {ls : Lines} {ch : Channel} (h : (ls.get ch).input = none) :
    ls.drop ch.once = ls := by
  have hset := ls.set_drop_one ch
  rw [Line.drop_of_input_eq_none h] at hset
  refine hset.symm.trans ?_
  cases ch <;> rfl

theorem Situation.lines_read (s : Situation) (ch : Channel) (nothing : Fault)
    (value : String → Except Fault Cell) :
    (s.read ch nothing value).lines = s.lines.drop ch.once := by
  cases hin : (s.lines.get ch).input with
  | none =>
    rw [Lines.drop_once_of_detached hin]
    simp only [read, Line.ask?_eq, hin]
    rfl
  | some rs =>
    refine Eq.trans ?_ (s.lines.set_drop_one ch)
    simp only [read, Line.ask?_eq, hin, Option.isSome_some, ↓reduceIte]
    cases (s.lines.get ch).reply 0 with
    | text t =>
      dsimp only
      cases value t <;> rfl
    | nothing => rfl
    | failure reason => rfl

namespace Mode

variable {mode : Mode} {ch : Channel} {s : Situation}

theorem lines_effect_of_listensTo? (h : mode.listensTo? = some ch) :
    (mode.effect s).lines = s.lines.drop ch.once := by
  cases mode with
  | consoleDecimalRead | consoleAsciiRead | modemAsciiRead =>
    cases h
    exact s.lines_read _ _ _
  | _ => cases h

end Mode

/-! ### Steps -/

namespace World

variable {w : World} {mode : Mode} {ch : Channel}

/-- The world after the operation of a mode, before the step moves on. -/
def operated (w : World) (mode : Mode) (c : Cell) : World :=
  ((w.started .operate c).noted (.operating mode)).apply (mode.effect (w.situation c))

/-- A step that carries out an operation. -/
theorem step_of_operation? (h : w.machine.operation? = some mode) :
    ∃ c, w.machine.cell = .ok c ∧
      ((∃ f, (mode.effect (w.situation c)).fault = some f ∧
          w.step = (.error f, w.operated mode c)) ∨
        (mode.effect (w.situation c)).fault = none ∧
          w.step = (.ok (), (w.operated mode c).completed mode.leavesFrame none)) := by
  obtain ⟨hd, hi, ⟨c, hc⟩, hm⟩ := Machine.of_operation?_eq_some h
  have hd' : (w.started .operate c).machine.isDead = false := hd
  have hm' : Mode.ofCell? (w.started .operate c).machine.mode = some mode := hm
  have hact : Operator.operate.act (w.started .operate c) c =
      ((mode.effect (w.situation c)).result.map fun _ => none, w.operated mode c) := by
    rw [Operator.act_of_live hd', Operator.work]
    simp only [hm']
    rfl
  have hleaves : Operator.operate.leavesFrame w.machine.toState = mode.leavesFrame := by
    rw [Operator.leavesFrame, hd, hm]
    rfl
  refine ⟨c, hc, ?_⟩
  simp only [step, hi, Operator.ofSymbol?_symbol, hc, hact, hleaves, Effect.result]
  cases hf : (mode.effect (w.situation c)).fault with
  | some f => exact .inl ⟨f, rfl, rfl⟩
  | none => exact .inr ⟨rfl, rfl⟩

/-- A step whose operation does not end in a fault. -/
theorem next_of_operation? {c : Cell} (h : w.machine.operation? = some mode)
    (hc : w.machine.cell = .ok c) (hf : (mode.effect (w.situation c)).fault = none) :
    w.Next ((w.operated mode c).completed mode.leavesFrame none) := by
  obtain ⟨d, hd, hstep⟩ := step_of_operation? h
  obtain rfl : d = c := Except.ok.inj (hd.symm.trans hc)
  obtain ⟨f, hf', -⟩ | ⟨-, hs⟩ := hstep
  · cases hf.symm.trans hf'
  · exact (on_advance w).trans hs

/-- A step whose operation ends in a fault. -/
theorem advance_of_operation? {c : Cell} {f : Fault} (h : w.machine.operation? = some mode)
    (hc : w.machine.cell = .ok c) (hf : (mode.effect (w.situation c)).fault = some f) :
    advance.on w = (.error f, w.operated mode c) := by
  obtain ⟨d, hd, hstep⟩ := step_of_operation? h
  obtain rfl : d = c := Except.ok.inj (hd.symm.trans hc)
  obtain ⟨g, hg, hs⟩ | ⟨hg, -⟩ := hstep
  · obtain rfl : f = g := Option.some.inj (hf.symm.trans hg)
    exact (on_advance w).trans hs
  · cases hf.symm.trans hg

/-- Such a step stops the run. -/
theorem run_of_operation? {c : Cell} {f : Fault} (h : w.machine.operation? = some mode)
    (hc : w.machine.cell = .ok c) (hf : (mode.effect (w.situation c)).fault = some f) (k : Nat) :
    w.run (k + 1) = .stopped f (w.operated mode c) := by
  rw [run, Machine.isFinished_of_operation? h, advance_of_operation? h hc hf]
  rfl

/-- What an operation adds to the events. -/
theorem events_operated (w : World) (mode : Mode) (c : Cell) : (w.operated mode c).events =
    w.events ++ (mode.effect (w.situation c)).entries.reverse.filterMap Entry.event? := by
  refine (events_append ((w.started .operate c).noted (.operating mode)) _).trans ?_
  rw [events_noted, events_started]

theorem events_completed (w : World) (left : Bool) (why : Option Idle) :
    (w.completed left why).events = w.events :=
  events_noted w _

/-- What happens on the lines in the next step, in order. -/
def happenings (w : World) : List Event := w.entries.reverse.filterMap Entry.event?

theorem events_step (w : World) : w.step.2.events = w.events ++ w.happenings := by
  rw [events, history, trace_step, List.reverse_append, List.filterMap_append]
  rfl

/-- What happens in a step that carries out an operation is what happens in the operation. -/
theorem happenings_of_operation? (h : w.machine.operation? = some mode) :
    ∃ c, w.machine.cell = .ok c ∧
      w.happenings = (mode.effect (w.situation c)).entries.reverse.filterMap Entry.event? := by
  obtain ⟨c, hc, hstep⟩ := step_of_operation? h
  have hevents : w.step.2.events = (w.operated mode c).events := by
    obtain ⟨f, -, hs⟩ | ⟨-, hs⟩ := hstep
    · rw [hs]
    · rw [hs]
      exact events_completed _ _ _
  refine ⟨c, hc, ?_⟩
  exact List.append_cancel_left (w.events_step.symm.trans (hevents.trans (w.events_operated mode c)))

/-- **A step takes one reply off the line that it reads**, and leaves the others as they are. -/
theorem lines_step (w : World) : w.step.2.lines =
    w.lines.drop fun ch => if w.machine.inquiry? = some ch then 1 else 0 := by
  cases hq : w.machine.inquiry? with
  | none =>
    have hstep := step_of_agreeFor (b := w) (w := w) rfl .rfl
    rw [newReads_of_inquiry?_eq_none hq] at hstep
    rw [hstep]
    rfl
  | some ch =>
    obtain ⟨mode, hmode, hlistens⟩ := Option.bind_eq_some_iff.1 hq
    obtain ⟨c, -, hstep⟩ := step_of_operation? hmode
    have honce : (fun d => if some ch = some d then 1 else 0) = ch.once := by
      funext d
      simp [Channel.once]
    have hlines : (w.operated mode c).lines = w.lines.drop ch.once :=
      Mode.lines_effect_of_listensTo? hlistens
    rw [honce]
    obtain ⟨f, -, hs⟩ | ⟨-, hs⟩ := hstep
    · rw [hs]
      exact hlines
    · rw [hs]
      exact hlines

/-- The worlds in which a run of at most `n` steps makes its steps, in order; if the run stops with a
fault, the last of them is the one in which the fault arose. -/
def course : Nat → World → List World
  | 0, _ => []
  | n + 1, w =>
    if w.machine.isFinished then []
    else w :: match Exec.advance.on w with
      | (.ok _, u) => course n u
      | (.error _, _) => []

/-- **The events of a run are those of its steps.** -/
theorem events_run (n : Nat) (w : World) :
    (w.run n).world.events = w.events ++ (w.course n).flatMap happenings := by
  induction n generalizing w with
  | zero =>
    rw [run, course, List.flatMap_nil, List.append_nil]
    split <;> rfl
  | succ n ih =>
    rw [run, course]
    split
    · rw [List.flatMap_nil, List.append_nil]
      rfl
    · have hevents := w.events_step
      rw [on_advance]
      rcases hs : w.step with ⟨f | _, u⟩
      · rw [hs] at hevents
        rw [List.flatMap_cons, List.flatMap_nil, List.append_nil]
        exact hevents
      · rw [hs] at hevents
        simp only [ih u, hevents, List.flatMap_cons, List.append_assoc]

/-- In the course of a run replies are taken off the lines, and nothing else happens to them. -/
theorem exists_lines_of_mem_course {n : Nat} {v : World} (h : v ∈ w.course n) :
    ∃ k, v.lines = w.lines.drop k := by
  induction n generalizing w with
  | zero => cases h
  | succ n ih =>
    rw [course] at h
    split at h
    · cases h
    · obtain rfl | h := List.mem_cons.1 h
      · exact ⟨fun _ => 0, (Lines.drop_zero _).symm⟩
      · have hlines := w.lines_step
        rw [on_advance] at h
        rcases hs : w.step with ⟨f | _, u⟩
        · rw [hs] at h
          cases h
        · rw [hs] at h hlines
          obtain ⟨k, hk⟩ := ih h
          dsimp only at hlines
          rw [hlines, Lines.drop_drop] at hk
          exact ⟨_, hk⟩

end World

end TapeMachine
