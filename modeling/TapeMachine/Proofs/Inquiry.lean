import TapeMachine.Proofs.Trace
import TapeMachine.Proofs.UnreadInput

/-!
# Steps that read

Whether the next step of a machine reads, and from which channel, is known before the step is made
(`Machine.inquiry?`).  A step that does not read tells of no read, and one that does tells of one
read with notes before and after it.  `World.step_of_agreeFor` carries a step over to other lines
and another trace.
-/

namespace TapeMachine

open Exec

namespace Machine

variable {m : Machine} {c : Channel}

/-- The channel that the next step reads from, if it reads. -/
def inquiry? (m : Machine) : Option Channel := m.operation?.bind Mode.listensTo?

theorem of_operation?_eq_some {mode : Mode} (h : m.operation? = some mode) :
    m.isDead = false ∧ m.instruction = .ok Operator.operate.symbol ∧ (∃ x, m.cell = .ok x) ∧
      Mode.ofCell? m.mode = some mode := by
  unfold operation? at h
  split at h
  · rename_i hp
    obtain ⟨hd, hi, hc⟩ := hp
    refine ⟨hd, ?_, ?_, h⟩
    · cases hm : m.instruction with
      | error f => simp [hm, Except.toOption] at hi
      | ok ch => simpa [hm, Except.toOption] using hi
    · cases hx : m.cell with
      | error f => simp [hx, Except.isOk, Except.toBool] at hc
      | ok x => exact ⟨x, rfl⟩
  · cases h

theorem isFinished_of_operation? {mode : Mode} (h : m.operation? = some mode) :
    m.isFinished = false := by
  obtain ⟨-, hi, -⟩ := of_operation?_eq_some h
  refine Bool.eq_false_iff.2 fun hf => ?_
  obtain ⟨f, hf⟩ := exists_instruction_eq_error hf
  cases hi.symm.trans hf

theorem isFinished_of_inquiry? (h : m.inquiry? = some c) : m.isFinished = false := by
  obtain ⟨mode, hmode, -⟩ := Option.bind_eq_some_iff.1 h
  exact isFinished_of_operation? hmode

end Machine

namespace Entry

variable {e : Entry}

theorem isRead_of_event?_eq_none (h : e.event? = none) : e.isRead = false := by
  cases e with
  | note n => rfl
  | event x => cases h

theorem not_isReadOn {ch : Channel} (h : e.isRead = false) : ¬ e.isReadOn ch = true := by
  cases e with
  | note n => exact nofun
  | event x =>
    cases x with
    | wrote d text => exact nofun
    | read d reply => cases h

end Entry

/-- How often each channel is read by one read on a channel. -/
def Channel.once (c d : Channel) : Nat := if c = d then 1 else 0

/-- What the operation of a mode that reads adds to the trace when it is given a text. -/
theorem Mode.entries_of_listensTo? {mode : Mode} {c : Channel} {s : Situation} {text : String}
    {line : Line} (h : mode.listensTo? = some c)
    (hask : (s.lines.get c).ask? = some (.text text, line)) :
    (mode.effect s).entries =
      [.note (.reading (some text)), .event (.read c (.text text))] := by
  cases mode with
  | consoleDecimalRead | consoleAsciiRead | modemAsciiRead =>
    cases h
    simp [effect, Situation.read, hask]
  | _ => cases h

namespace World

variable {w b : World} {c : Channel}

/-- A step that does not read tells of no read. -/
theorem isRead_of_mem_entries {e : Entry} (hq : w.machine.inquiry? = none) (he : e ∈ w.entries) :
    e.isRead = false := by
  have hmay := may_of_mem_entries he
  cases e with
  | note n => rfl
  | event x =>
    cases x with
    | wrote d text => rfl
    | read d reply => cases hq.symm.trans hmay

/-- A step that reads tells of one read, between notes. -/
theorem exists_entries_of_inquiry? {text : String} {line : Line}
    (hq : w.machine.inquiry? = some c)
    (hask : (w.lines.get c).ask? = some (.text text, line)) :
    ∃ before after, w.entries.reverse = before ++ .event (.read c (.text text)) :: after ∧
      (∀ e ∈ before, e.event? = none) ∧ ∀ e ∈ after, e.event? = none := by
  obtain ⟨mode, hmode, hlistens⟩ := Option.bind_eq_some_iff.1 hq
  obtain ⟨hd, hi, ⟨x, hx⟩, hm⟩ := Machine.of_operation?_eq_some hmode
  have hacted : Operator.operate.entries (w.started .operate x) x =
      [.note (.reading (some text)), .event (.read c (.text text)), .note (.operating mode)] := by
    have hd' : (w.started .operate x).machine.isDead = false := hd
    have hm' : Mode.ofCell? (w.started .operate x).machine.mode = some mode := hm
    simp only [Operator.entries, hd', hm']
    rw [Mode.entries_of_listensTo? (s := (w.started .operate x).situation x) hlistens hask]
    rfl
  have hbefore : ∀ e ∈ [Entry.note (.fetched (String.singleton Operator.operate.symbol)),
      .note (.evaluating .operate x w.machine.buffer.length w.machine.position),
      .note (.operating mode)], e.event? = none := by
    simp [Entry.event?]
  simp only [entries, hi, hx, Operator.ofSymbol?_symbol, hacted]
  -- The last note is missing where the step could not make use of the text.
  split
  · refine ⟨_, [.note (.reading (some text)),
      .note (.evaluated (Operator.operate.leavesFrame w.machine.toState))], rfl, hbefore, ?_⟩
    simp [Entry.event?]
  · refine ⟨_, [.note (.reading (some text))], rfl, hbefore, ?_⟩
    simp [Entry.event?]

/-! ### Steps on other lines -/

/-- The number of reads on a channel that a step tells of. -/
def newReads (w : World) (ch : Channel) : Nat := w.entries.countP (Entry.isReadOn ch)

theorem newReads_of_inquiry?_eq_none (hq : w.machine.inquiry? = none) :
    w.newReads = fun _ => 0 := by
  funext ch
  refine List.countP_eq_zero.2 fun e he => ?_
  exact Entry.not_isReadOn (isRead_of_mem_entries hq he)

theorem newReads_of_inquiry? {text : String} {line : Line} (hq : w.machine.inquiry? = some c)
    (hask : (w.lines.get c).ask? = some (.text text, line)) : w.newReads = c.once := by
  funext ch
  obtain ⟨before, after, he, hb, ha⟩ := exists_entries_of_inquiry? hq hask
  have hnotes : ∀ es : List Entry, (∀ e ∈ es, e.event? = none) →
      es.countP (Entry.isReadOn ch) = 0 := by
    intro es hes
    refine List.countP_eq_zero.2 fun e h => ?_
    exact Entry.not_isReadOn (Entry.isRead_of_event?_eq_none (hes e h))
  rw [newReads, ← List.countP_reverse, he, List.countP_append, List.countP_cons, hnotes before hb,
    hnotes after ha, Nat.zero_add, Nat.zero_add]
  simp [Entry.isReadOn, Channel.once]

theorem entries_eq_of_trace {es : List Entry} (h : w.step.2.trace = es ++ w.trace) :
    w.entries = es :=
  List.append_cancel_right (w.trace_step.symm.trans h)

/-- A step depends on the lines only by what is attached to them and by the replies that it reads,
and not on the trace. -/
theorem step_of_agreeFor (hm : b.machine = w.machine)
    (hl : w.lines.AgreeFor w.newReads b.lines) :
    b.step = (w.step.1, ⟨w.step.2.machine, b.lines.drop w.newReads, w.entries ++ b.trace⟩) := by
  obtain ⟨k, hreads, hrun⟩ := step_frugal w
  obtain rfl : k = w.newReads := by
    funext ch
    have h := hreads ch
    rw [World.reads, trace_step, List.countP_append, World.reads, Nat.add_comm] at h
    exact (Nat.add_left_cancel h).symm
  have hrelined := hrun b.lines hl
  -- On the new lines the trace is the same, and so are the entries.
  have hentries : (w.withLines b.lines).entries = w.entries := by
    refine entries_eq_of_trace ?_
    rw [hrelined]
    exact w.trace_step
  have hb : b = (w.withLines b.lines).withTrace b.trace := by
    rw [withTrace, withLines, ← hm]
  conv => lhs; rw [hb]
  rw [step_withTrace, hrelined, hentries]
  rfl

end World

end TapeMachine
