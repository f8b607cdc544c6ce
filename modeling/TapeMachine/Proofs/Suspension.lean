import TapeMachine.Proofs.Inquiry
import TapeMachine.Proofs.Transcript

/-!
# Moves of the window

The window tries a step on lines of its own and looks where the history of the step has a read.  So
it suspends the program exactly before the steps that read, and it shows each step once: up to the
read when the program is suspended, and from there on when it is resumed.

`Window.progress?_cases` says what the run of a window can do next.
-/

namespace TapeMachine

open Exec

theorem Entry.isRead_event (x : Event) : (event x).isRead = x.isRead := by
  cases x <;> rfl

/-! ### The steps of the window -/

namespace Window

variable (w : Window) {m : Machine} {c : Channel}

/-- The world in which the window makes a step; a read is given the text. -/
def world (m : Machine) (text : String) : World := { machine := m, lines := lines text }

theorem stepWith_eq (m : Machine) (text : String) : stepWith m text = (world m text).step :=
  on_advance _

theorem history_step_world (m : Machine) (text : String) :
    (world m text).step.2.history = (world m text).entries.reverse := by
  rw [World.history, World.trace_step]
  exact congrArg List.reverse (List.append_nil _)

theorem ask?_lines (c : Channel) (text : String) :
    ((lines text).get c).ask? = some (.text text, { input := some [], output := true }) := by
  cases c <;> rfl

theorem exists_entries_world (hq : m.inquiry? = some c) (text : String) :
    ∃ before after,
      (world m text).entries.reverse = before ++ .event (.read c (.text text)) :: after ∧
      (∀ e ∈ before, e.event? = none) ∧ ∀ e ∈ after, e.event? = none :=
  World.exists_entries_of_inquiry? (w := world m text) hq (ask?_lines c text)

/-- The step that reads has no other event. -/
theorem events_world (hq : m.inquiry? = some c) (text : String) :
    (world m text).entries.reverse.filterMap Entry.event? = [.read c (.text text)] := by
  obtain ⟨before, after, he, hb, ha⟩ := exists_entries_world hq text
  rw [he, List.filterMap_append, List.filterMap_eq_nil_iff.2 hb,
    List.filterMap_cons_some (f := Entry.event?) rfl, List.filterMap_eq_nil_iff.2 ha,
    List.nil_append]

theorem splitAtRead_of_inquiry?_eq_none (hq : m.inquiry? = none) :
    splitAtRead (world m "").step.2.history = ((world m "").entries.reverse, none) := by
  rw [history_step_world]
  refine splitAtRead_of_not_isRead fun e he => ?_
  exact World.isRead_of_mem_entries (w := world m "") hq (List.mem_reverse.1 he)

/-- A step that reads is split at its read, with notes on either side. -/
theorem exists_splitAtRead_of_inquiry? (hq : m.inquiry? = some c) (text : String) :
    ∃ before after, (∀ e ∈ before, e.event? = none) ∧ (∀ e ∈ after, e.event? = none) ∧
      splitAtRead (world m text).step.2.history = (before, some (c, after)) := by
  obtain ⟨before, after, he, hb, ha⟩ := exists_entries_world hq text
  refine ⟨before, after, hb, ha, ?_⟩
  rw [history_step_world, he]
  exact splitAtRead_append c (fun e h => Entry.isRead_of_event?_eq_none (hb e h)) _ _

/-- The window makes a step that does not read, and shows it. -/
theorem proceed_of_inquiry?_eq_none (hf : m.isFinished = false) (hq : m.inquiry? = none) :
    w.proceed m = (w.display (world m "").entries.reverse).yield (world m "").step.1
      (world m "").step.2.machine := by
  simp only [proceed, hf, stepWith_eq, splitAtRead_of_inquiry?_eq_none hq]
  rfl

/-- The window suspends the program before a step that reads. -/
theorem exists_proceed_eq_suspend (hq : m.inquiry? = some c) :
    ∃ before, (∀ e ∈ before, e.event? = none) ∧
      w.proceed m = ((w.display before).suspend m c, none) := by
  obtain ⟨before, after, hb, -, hsplit⟩ := exists_splitAtRead_of_inquiry? hq ""
  refine ⟨before, hb, ?_⟩
  simp only [proceed, Machine.isFinished_of_inquiry? hq, stepWith_eq, hsplit]
  rfl

/-- When it has a text, the window makes the step that reads. -/
theorem exists_resume_eq (hq : m.inquiry? = some c) (text : String) :
    ∃ after, (∀ e ∈ after, e.event? = none) ∧
      w.resume m c text = ((w.setBlocking c false).display after).yield (world m text).step.1
        (world m text).step.2.machine := by
  obtain ⟨before, after, -, ha, hsplit⟩ := exists_splitAtRead_of_inquiry? hq text
  refine ⟨after, ha, ?_⟩
  simp only [resume, stepWith_eq, hsplit]

/-! ### The parts of a move -/

@[simp] theorem pane_setBlocking (c d : Channel) (b : Bool) :
    (w.setBlocking c b).pane d = w.pane d := by
  cases d <;> rfl

@[simp] theorem activity_suspend (m : Machine) (c : Channel) :
    (w.suspend m c).activity = .suspended m c := by
  cases c <;> rfl

@[simp] theorem runCounter_suspend (m : Machine) (c : Channel) :
    (w.suspend m c).runCounter = w.runCounter := by
  cases c <;> rfl

@[simp] theorem ioCounter_suspend (m : Machine) (c : Channel) :
    (w.suspend m c).ioCounter = w.ioCounter + 1 := by
  cases c <;> rfl

theorem pane_suspend (m : Machine) (c d : Channel) :
    (w.suspend m c).pane d =
      if c = d then { w.pane d with ticket := .waiting } else w.pane d := by
  rw [suspend, pane_updatePane]
  cases d <;> rfl

@[simp] theorem pane_complete (m : Machine) (d : Channel) : (w.complete m).pane d = w.pane d := by
  cases d <;> rfl

@[simp] theorem pane_counted (d : Channel) : w.counted.pane d = w.pane d := by
  cases d <;> rfl

@[simp] theorem pane_yield (result : Except Fault Unit) (m : Machine) (d : Channel) :
    (w.yield result m).1.pane d = w.pane d := by
  cases result with
  | ok u => cases d <;> rfl
  | error f =>
    rw [← w.pane_log d (.stopped f)]
    cases d <;> rfl

theorem activity_yield (result : Except Fault Unit) (m : Machine) :
    (w.yield result m).1.activity = .running m := by
  cases result <;> rfl

/-- **What a run can do next**: come to its end, make a step that does not read, be suspended before
a step that reads, or make that step once a text was given to the read. -/
theorem progress?_cases {w : Window} {r : Window × Option Machine} (h : w.progress? = some r) :
    (∃ m, w.activity = .running m ∧ m.isFinished = true ∧ r = (w.counted, some m)) ∨
    (∃ m es, w.activity = .running m ∧ m.isFinished = false ∧ m.inquiry? = none ∧
      r = (display w es).yield (world m "").step.1 (world m "").step.2.machine) ∨
    (∃ m c es, w.activity = .running m ∧ m.inquiry? = some c ∧
      r = ((w.display es).suspend m c, none)) ∨
    ∃ m c text es, w.activity = .suspended m c ∧ (w.pane c).ticket = .answered text ∧
      r = ((w.setBlocking c false).display es).yield (world m text).step.1
        (world m text).step.2.machine := by
  unfold progress? at h
  split at h
  · cases h
  · rename_i m ha
    cases h
    cases hf : m.isFinished with
    | true =>
      refine .inl ⟨m, ha, hf, ?_⟩
      rw [proceed, if_pos hf]
    | false =>
      cases hq : m.inquiry? with
      | none => exact .inr (.inl ⟨m, _, ha, hf, hq, w.proceed_of_inquiry?_eq_none hf hq⟩)
      | some c =>
        obtain ⟨before, -, heq⟩ := w.exists_proceed_eq_suspend hq
        exact .inr (.inr (.inl ⟨m, c, before, ha, hq, heq⟩))
  · rename_i m c ha
    split at h
    · rename_i text ht
      cases h
      refine .inr (.inr (.inr ⟨m, c, text, ?_⟩))
      rw [resume, stepWith_eq]
      exact ⟨_, ha, ht, rfl⟩
    · cases h

/-! ### Looking at frames -/

theorem exists_showDumps_eq (f : Frame) :
    ∃ cells buffer signals, (w.showDumps f).2 =
      { w with cellsText := cells, bufferText := buffer, signals := signals } := by
  unfold showDumps
  split
  · exact ⟨_, _, _, rfl⟩
  · dsimp only
    split <;> exact ⟨_, _, _, rfl⟩

/-- To look at a frame changes the view only. -/
theorem exists_viewFrame_eq (i : Int) :
    ∃ status cells buffer signals, (w.viewFrame i).2 = { w with
      status := status, cellsText := cells, bufferText := buffer, signals := signals } := by
  unfold viewFrame
  split
  · exact ⟨_, _, _, _, rfl⟩
  · split
    · exact ⟨_, _, _, _, rfl⟩
    · dsimp only
      split
      · exact ⟨_, _, _, _, rfl⟩
      · rename_i frame _
        obtain ⟨cells, buffer, signals, h⟩ := exists_showDumps_eq _ frame
        exact ⟨_, _, _, _, h⟩

theorem snd_attempted (r : Except Fault Unit × Window) : (attempted r).2 = r.2 := by
  obtain ⟨_ | _, w⟩ := r <;> rfl

/-! ### Entering a text -/

theorem setText_input (c : Channel) (text : String) :
    w.setText (c.word ++ "_input") text = w.updatePane c fun p => { p with field := text } := by
  cases c <;> simp [setText, Channel.word, updatePane]

theorem input?_of_field {p : Pane} (h : p.field ≠ "") : p.input? = some p.field := by
  rw [Pane.input?, if_neg]
  exact fun he => h (String.isEmpty_iff.1 he)

/-- Without a read, or with an empty field, nothing is entered. -/
theorem enter_eq_self (h : (w.pane c).ticket = .absent ∨ (w.pane c).field = "") :
    w.enter c = (.ok (), w) := by
  unfold enter
  obtain h | h := h
  · rw [h]
  · have hin : (w.pane c).input? = none := by
      rw [Pane.input?, h]
      rfl
    rw [hin]
    cases (w.pane c).ticket <;> rfl

/-- The window after its input on a channel was handed in for a read. -/
def handIn (c : Channel) : Window :=
  (w.append c false (w.pane c).field).updatePane c fun p =>
    { p with ticket := .answered (w.pane c).field, field := "" }

@[simp] theorem activity_handIn (c : Channel) : (w.handIn c).activity = w.activity := by
  simp [handIn, append]

@[simp] theorem runCounter_handIn (c : Channel) : (w.handIn c).runCounter = w.runCounter := by
  simp [handIn, append]

@[simp] theorem ioCounter_handIn (c : Channel) : (w.handIn c).ioCounter = w.ioCounter := by
  simp [handIn, append]

theorem pane_handIn (c d : Channel) :
    (w.handIn c).pane d = if c = d then
      { (w.pane c).inscribe [w.inscription false (w.pane c).field] with
        ticket := .answered (w.pane c).field, field := "" } else w.pane d := by
  rw [handIn, pane_updatePane, pane_append]
  by_cases hd : c = d
  · subst hd
    simp
  · simp [hd]

theorem enter_of_waiting (hw : (w.pane c).ticket = .waiting) (hf : (w.pane c).field ≠ "") :
    w.enter c = (.ok (), w.handIn c) := by
  rw [enter, hw, input?_of_field hf]
  rfl

theorem enter_of_answered {text : String} (hw : (w.pane c).ticket = .answered text)
    (hf : (w.pane c).field ≠ "") :
    w.enter c = (.error .answeredRead, w.append c false (w.pane c).field) := by
  rw [enter, hw, input?_of_field hf]

end Window

end TapeMachine
