import TapeMachine.Proofs.Observation
import TapeMachine.Proofs.Suspension

/-!
# A run that is attended

Someone starts the program of an idle window and has a `Script`: for each channel the texts to
enter.  Whenever the program waits on a channel, they put the next text for it into the field and
enter it (`Window.attend`).  If the run comes to its end, the window shows what the interpreter
leaves that runs the program on lines with these texts: the same machine with its frames, the same
count, and in the transcripts the events of that run in order (`Window.attend_matches_run`).

The two runs go side by side, a step of the interpreter against one move of the window, or, where
the step reads, against the suspension, the entering of the text and the resumption
(`Window.attend_step`).  What holds between them after each step is `Window.Shows`.
-/

namespace TapeMachine

open Exec

/-- The texts that are to be entered on each channel. -/
structure Script where
  console : List String := []
  modem : List String := []
deriving DecidableEq, Repr

namespace Script

/-- The texts for a channel. -/
def get (t : Script) : Channel → List String
  | .console => t.console
  | .modem => t.modem

/-- The next text for a channel, and the texts that are left. -/
def next? (t : Script) (c : Channel) : Option (String × Script) :=
  match c, t with
  | .console, ⟨text :: console, modem⟩ => some (text, ⟨console, modem⟩)
  | .modem, ⟨console, text :: modem⟩ => some (text, ⟨console, modem⟩)
  | _, _ => none

/-- A line with a writer, and with a reader that replies with the texts. -/
def line (texts : List String) : Line := { input := some (texts.map .text), output := true }

/-- The lines of an interpreter whose readers reply with the texts. -/
def lines (t : Script) : Lines := ⟨line t.console, line t.modem⟩

/-- No text is empty. -/
def Filled (t : Script) : Prop := ∀ c, ∀ text ∈ t.get c, text ≠ ""

variable {t t' : Script} {c : Channel} {text : String}

theorem next?_cases (h : t.next? c = some (text, t')) :
    (c = .console ∧ t = ⟨text :: t'.console, t'.modem⟩) ∨
      (c = .modem ∧ t = ⟨t'.console, text :: t'.modem⟩) := by
  unfold next? at h
  split at h
  · cases h
    exact .inl ⟨rfl, rfl⟩
  · cases h
    exact .inr ⟨rfl, rfl⟩
  · cases h

/-- Reading the next text leaves the lines of the texts that are left. -/
theorem drop_once_lines (h : t.next? c = some (text, t')) : t.lines.drop c.once = t'.lines := by
  obtain ⟨rfl, rfl⟩ | ⟨rfl, rfl⟩ := next?_cases h <;> rfl

theorem filled_of_next? (ht : t.Filled) (h : t.next? c = some (text, t')) :
    text ≠ "" ∧ t'.Filled := by
  obtain ⟨rfl, rfl⟩ | ⟨rfl, rfl⟩ := next?_cases h
  · refine ⟨ht .console text List.mem_cons_self, fun d s hs => ?_⟩
    cases d with
    | console => exact ht .console s (List.mem_cons_of_mem text hs)
    | modem => exact ht .modem s hs
  · refine ⟨ht .modem text List.mem_cons_self, fun d s hs => ?_⟩
    cases d with
    | console => exact ht .console s hs
    | modem => exact ht .modem s (List.mem_cons_of_mem text hs)

/-- The window's own lines have the same attachments as those of a script. -/
theorem agreeFor_zero (t : Script) (text : String) :
    (Window.lines text).AgreeFor (fun _ => 0) t.lines := by
  intro d
  cases d <;> exact ⟨rfl, rfl, rfl, fun i hi => absurd hi (Nat.not_lt_zero i)⟩

theorem agreeFor_once (h : t.next? c = some (text, t')) :
    (Window.lines text).AgreeFor c.once t.lines := by
  intro d
  have hzero := t.agreeFor_zero text d
  refine ⟨hzero.output_eq, hzero.encodes_eq, hzero.attached_eq, fun i hi => ?_⟩
  -- Only the first reply on the channel itself is asked for.
  unfold Channel.once at hi
  split at hi
  · rename_i hd
    obtain rfl : i = 0 := Nat.lt_one_iff.1 hi
    subst hd
    obtain ⟨rfl, rfl⟩ | ⟨rfl, rfl⟩ := next?_cases h <;> rfl
  · cases hi

end Script

namespace Window

variable {w v : Window} {m : Machine} {c : Channel} {t t' : Script}

/-- Puts a text into the field of a channel and enters it. -/
def supply (w : Window) (c : Channel) (text : String) : Window :=
  ((w.setText (c.word ++ "_input") text).handle 0 (.entered c)).2

/-- Attends to the window for at most `n` moves and texts: it moves by itself while it can, and when
it waits the next text is entered.  This gives the window when it is idle again and the texts that
are left; there is none if the texts or the number run out first. -/
def attend : Nat → Window → Script → Option (Window × Script)
  | 0, _, _ => none
  | n + 1, w, t =>
    match w.move? with
    | some w' => attend n w' t
    | none =>
      match w.activity with
      | .suspended _ c =>
        match t.next? c with
        | some (text, t') => attend n (w.supply c text) t'
        | none => none
      | _ => some (w, t)

/-- After the program was suspended the text is handed in for its read. -/
theorem supply_suspend {text : String} (ht : text ≠ "") :
    (w.suspend m c).supply c text =
      ((w.suspend m c).updatePane c fun p => { p with field := text }).handIn c := by
  rw [supply, setText_input]
  set u := (w.suspend m c).updatePane c fun p => { p with field := text } with hu
  have hwaiting : (u.pane c).ticket = .waiting := by
    rw [hu, pane_updatePane_self, pane_suspend, if_pos rfl]
  have hfield : (u.pane c).field = text := by
    rw [hu, pane_updatePane_self]
  rw [handle, u.enter_of_waiting hwaiting (by rwa [hfield])]
  rfl

/-- After the text was entered the program goes on with it. -/
theorem move?_supply {text : String} (ht : text ≠ "") :
    ((w.suspend m c).supply c text).move? =
      some (told (((w.suspend m c).supply c text).resume m c text)) := by
  have ha : ((w.suspend m c).supply c text).activity = .suspended m c := by
    rw [supply_suspend ht]
    simp
  have hticket : (((w.suspend m c).supply c text).pane c).ticket = .answered text := by
    rw [supply_suspend ht, pane_handIn, if_pos rfl, pane_updatePane_self]
  rw [move?, progress?, ha]
  simp only [hticket]
  rfl

/-! ### The two runs side by side -/

/-- The window, begun as `start`, shows the events of a run: it has counted the reads, and the
transcripts have the lines of the events added. -/
structure Shows (start w : Window) (events : List Event) : Prop where
  runCounter_eq : w.runCounter = start.runCounter
  ioCounter_eq : w.ioCounter = events.countP Event.isRead
  transcript_eq : ∀ c, (w.pane c).transcript = (start.pane c).transcript ++
    Inscription.renderAll (inscriptions start.runCounter c 0 events)

namespace Shows

variable {start u : Window} {events : List Event}

/-- What is shown depends on the counters and the transcripts. -/
theorem congr (h : Shows start w events) (hr : u.runCounter = w.runCounter)
    (hi : u.ioCounter = w.ioCounter) (ht : ∀ c, (u.pane c).transcript = (w.pane c).transcript) :
    Shows start u events where
  runCounter_eq := hr.trans h.runCounter_eq
  ioCounter_eq := hi.trans h.ioCounter_eq
  transcript_eq := fun c => (ht c).trans (h.transcript_eq c)

/-- More events, with their lines in the transcripts. -/
theorem extend (h : Shows start w events) (more : List Event)
    (hr : u.runCounter = w.runCounter)
    (hi : u.ioCounter = w.ioCounter + more.countP Event.isRead)
    (ht : ∀ c, (u.pane c).transcript = (w.pane c).transcript ++
      Inscription.renderAll (inscriptions w.runCounter c w.ioCounter more)) :
    Shows start u (events ++ more) where
  runCounter_eq := hr.trans h.runCounter_eq
  ioCounter_eq := by
    rw [hi, h.ioCounter_eq, List.countP_append]
  transcript_eq := by
    intro c
    rw [ht, h.transcript_eq, h.runCounter_eq, h.ioCounter_eq, inscriptions_append, Nat.zero_add,
      Inscription.renderAll_append, String.append_assoc]

/-- A history without reads is shown. -/
theorem display (h : Shows start w events) {es : List Entry} (hes : ∀ e ∈ es, e.isRead = false) :
    Shows start (w.display es) (events ++ es.filterMap Entry.event?) := by
  obtain ⟨-, hr, hi⟩ := w.display_fixed es
  have hcount : (es.filterMap Entry.event?).countP Event.isRead = 0 := by
    refine List.countP_eq_zero.2 fun x hx => ?_
    obtain ⟨e, he, hex⟩ := List.mem_filterMap.1 hx
    cases e with
    | note n => cases hex
    | event y =>
      cases hex
      rw [← Entry.isRead_event, hes _ he]
      exact Bool.false_ne_true
  refine h.extend _ hr (by rw [hi, hcount, Nat.add_zero]) fun c => ?_
  rw [pane_display, filterMap_output?_eq_inscriptions c _ _ hes]
  rfl

/-- Notes leave what is shown as it was. -/
theorem display_notes (h : Shows start w events) {es : List Entry}
    (hes : ∀ e ∈ es, e.event? = none) : Shows start (w.display es) events := by
  have hdisplay := h.display fun e he => Entry.isRead_of_event?_eq_none (hes e he)
  rwa [List.filterMap_eq_nil_iff.2 hes, List.append_nil] at hdisplay

/-- The program was suspended and the text entered: the read is shown. -/
theorem supply (h : Shows start w events) {text : String} (ht : text ≠ "") :
    Shows start ((w.suspend m c).supply c text) (events ++ [.read c (.text text)]) := by
  rw [supply_suspend ht]
  refine h.extend _ (by simp) (by simp [Event.isRead]) fun d => ?_
  rw [pane_handIn, pane_updatePane_self, pane_updatePane, pane_suspend, pane_suspend]
  by_cases hd : c = d
  · subst hd
    simp [Pane.inscribe, inscription, inscriptions, Event.inscription?]
  · simp [hd, inscriptions, Event.inscription?]

end Shows

/-- A step on the lines of a script that does not read, as the window makes it. -/
theorem step_of_inquiry?_eq_none {b : World} (hb : b.lines = t.lines)
    (hq : b.machine.inquiry? = none) :
    b.step = ((world b.machine "").step.1,
      ⟨(world b.machine "").step.2.machine, t.lines, (world b.machine "").entries ++ b.trace⟩) := by
  have hnew := World.newReads_of_inquiry?_eq_none (w := world b.machine "") hq
  have hstep := World.step_of_agreeFor (w := world b.machine "") (b := b) rfl (by
    rw [hnew, hb]
    exact t.agreeFor_zero "")
  rwa [hnew, Lines.drop_zero, hb] at hstep

/-- A step on the lines of a script that reads, as the window makes it with the next text. -/
theorem step_of_inquiry? {b : World} {text : String} (hb : b.lines = t.lines)
    (hq : b.machine.inquiry? = some c) (hn : t.next? c = some (text, t')) :
    b.step = ((world b.machine text).step.1,
      ⟨(world b.machine text).step.2.machine, t'.lines,
        (world b.machine text).entries ++ b.trace⟩) := by
  have hnew := World.newReads_of_inquiry? (w := world b.machine text) hq (ask?_lines c text)
  have hstep := World.step_of_agreeFor (w := world b.machine text) (b := b) rfl (by
    rw [hnew, hb]
    exact Script.agreeFor_once hn)
  rwa [hnew, hb, Script.drop_once_lines hn] at hstep

theorem exists_eq_succ_of_attend {n : Nat} {r : Window × Script} (h : attend n w t = some r) :
    ∃ k, n = k + 1 := by
  cases n with
  | zero => cases h
  | succ k => exact ⟨k, rfl⟩

theorem attend_of_idle {n : Nat} {r : Window × Script} (ha : w.activity = .idle)
    (h : attend n w t = some r) : r = (w, t) := by
  obtain ⟨k, rfl⟩ := exists_eq_succ_of_attend h
  have hmove : w.move? = none := by
    rw [move?, progress?, ha]
    rfl
  simp only [attend, hmove, ha, Option.some.injEq] at h
  exact h.symm

theorem move?_of_running (ha : w.activity = .running m) :
    w.move? = some (told (w.proceed m)) := by
  rw [move?, progress?, ha]
  rfl

theorem attend_of_move? {n : Nat} {w' : Window} (h : w.move? = some w') :
    attend (n + 1) w t = attend n w' t := by
  rw [attend, h]

theorem attend_of_suspended {n : Nat} (ha : w.activity = .suspended m c)
    (hw : (w.pane c).ticket = .waiting) :
    attend (n + 1) w t = match t.next? c with
      | some (text, t') => attend n (w.supply c text) t'
      | none => none := by
  have hmove : w.move? = none := by
    rw [move?, progress?, ha]
    simp only [hw]
    rfl
  rw [attend, hmove, ha]

theorem events_of_trace (m : Machine) (ls : Lines) (es : List Entry) (b : World) :
    World.events ⟨m, ls, es ++ b.trace⟩ = b.events ++ es.reverse.filterMap Entry.event? :=
  World.events_append ⟨m, ls, b.trace⟩ es

/-- A step of the run that does not read is one move of the window. -/
theorem attend_step_of_inquiry?_eq_none {start : Window} {b : World} {n : Nat}
    {r : Window × Script} (ha : w.activity = .running b.machine) (hb : b.lines = t.lines)
    (hf : b.machine.isFinished = false) (hq : b.machine.inquiry? = none)
    (hs : Shows start w b.events) (h : attend (n + 1) w t = some r) :
    ∃ u, attend n (told (u.yield b.step.1 b.step.2.machine)) t = some r ∧
      b.step.2.lines = t.lines ∧ Shows start u b.step.2.events := by
  have hmove := move?_of_running ha
  rw [attend_of_move? hmove, w.proceed_of_inquiry?_eq_none hf hq] at h
  rw [step_of_inquiry?_eq_none hb hq]
  refine ⟨_, h, rfl, ?_⟩
  rw [events_of_trace]
  refine hs.display fun e he => ?_
  exact World.isRead_of_mem_entries (w := world b.machine "") hq (List.mem_reverse.1 he)

/-- A step of the run that reads is the suspension of the program, the entering of the next text and
the resumption with it. -/
theorem attend_step_of_inquiry? {start : Window} {b : World} {n : Nat}
    {r : Window × Script} (ha : w.activity = .running b.machine) (hb : b.lines = t.lines)
    (ht : t.Filled) (hq : b.machine.inquiry? = some c)
    (hs : Shows start w b.events) (h : attend (n + 1) w t = some r) :
    ∃ k < n, ∃ u t', attend k (told (u.yield b.step.1 b.step.2.machine)) t' = some r ∧
      b.step.2.lines = t'.lines ∧ t'.Filled ∧ Shows start u b.step.2.events := by
  have hmove := move?_of_running ha
  obtain ⟨before, hbefore, hsuspend⟩ := w.exists_proceed_eq_suspend hq
  rw [attend_of_move? hmove, hsuspend, told] at h
  set u := w.display before with hu
  have hsu : Shows start u b.events := hs.display_notes hbefore
  -- The program waits, so there is a next text.
  obtain ⟨k, rfl⟩ := exists_eq_succ_of_attend h
  have hwaiting : ((u.suspend b.machine c).pane c).ticket = .waiting := by
    rw [pane_suspend, if_pos rfl]
  rw [attend_of_suspended (activity_suspend u b.machine c) hwaiting] at h
  cases hn : t.next? c with
  | none => simp [hn] at h
  | some p =>
    obtain ⟨text, t'⟩ := p
    obtain ⟨htext, ht'⟩ := Script.filled_of_next? ht hn
    simp only [hn] at h
    -- The text is there, so the program goes on with it.
    obtain ⟨j, rfl⟩ := exists_eq_succ_of_attend h
    obtain ⟨after, hafter, hresume⟩ :=
      ((u.suspend b.machine c).supply c text).exists_resume_eq hq text
    rw [attend_of_move? (move?_supply htext), hresume] at h
    rw [step_of_inquiry? hb hq hn]
    refine ⟨j, by omega, _, t', h, rfl, ht', ?_⟩
    rw [events_of_trace, events_world hq]
    refine Shows.display_notes ?_ hafter
    exact (hsu.supply htext).congr rfl rfl fun d => by rw [pane_setBlocking]

/-- **A step of the run**, with what the window does meanwhile. -/
theorem attend_step {start : Window} {b : World} {n : Nat} {r : Window × Script}
    (ha : w.activity = .running b.machine) (hb : b.lines = t.lines) (ht : t.Filled)
    (hf : b.machine.isFinished = false) (hs : Shows start w b.events)
    (h : attend n w t = some r) :
    ∃ k < n, ∃ u t', attend k (told (u.yield b.step.1 b.step.2.machine)) t' = some r ∧
      b.step.2.lines = t'.lines ∧ t'.Filled ∧ Shows start u b.step.2.events := by
  obtain ⟨n, rfl⟩ := exists_eq_succ_of_attend h
  cases hq : b.machine.inquiry? with
  | none =>
    obtain ⟨u, hu, hl, hsu⟩ := attend_step_of_inquiry?_eq_none ha hb hf hq hs h
    exact ⟨n, n.lt_succ_self, u, t, hu, hl, ht, hsu⟩
  | some c =>
    obtain ⟨k, hk, hstep⟩ := attend_step_of_inquiry? ha hb ht hq hs h
    exact ⟨k, Nat.lt_succ_of_lt hk, hstep⟩

/-- How an attended run ends: as the verdict on the run of the interpreter says. -/
inductive EndsWith (start v : Window) (left : Script) : Verdict → Prop where
  | finished {u : Window} {b : World} (hs : Shows start u b.events) (hl : b.lines = left.lines)
      (hv : v = u.counted.complete b.machine) : EndsWith start v left (.finished b)
  | stopped {u : Window} {b : World} {f : Fault} (hs : Shows start u b.events)
      (hl : b.lines = left.lines) (hv : v = (u.log (.stopped f)).complete b.machine) :
      EndsWith start v left (.stopped f b)

/-- **The whole run**, by induction on the moves and texts that the window takes. -/
theorem attend_run {start : Window} {left : Script} (n : Nat) (w : Window) (t : Script) (b : World)
    (ha : w.activity = .running b.machine) (hb : b.lines = t.lines) (ht : t.Filled)
    (hs : Shows start w b.events) (h : attend n w t = some (v, left)) :
    ∃ k, EndsWith start v left (b.run k) := by
  induction n using Nat.strongRecOn generalizing w t b with
  | ind n ih =>
    cases hf : b.machine.isFinished with
    | true =>
      obtain ⟨n, rfl⟩ := exists_eq_succ_of_attend h
      have hmove : w.move? = some (w.counted.complete b.machine) := by
        rw [move?_of_running ha, proceed, if_pos hf]
        rfl
      rw [attend_of_move? hmove] at h
      cases attend_of_idle (w := w.counted.complete b.machine) rfl h
      refine ⟨0, ?_⟩
      rw [World.run_of_isFinished hf]
      exact .finished hs hb rfl
    | false =>
      obtain ⟨k, hk, u, t', hu, hl, ht', hsu⟩ := attend_step ha hb ht hf hs h
      rcases hstep : b.step with ⟨f | ⟨⟩, b'⟩
      · -- The step ended in a fault, and so did the run.
        rw [hstep] at hu hl hsu
        cases attend_of_idle (w := (u.log (.stopped f)).complete b'.machine) rfl hu
        refine ⟨1, ?_⟩
        simp only [World.run, hf, on_advance, hstep]
        exact .stopped hsu hl rfl
      · rw [hstep] at hu hl hsu
        have hsu' : Shows start (told (u.yield (.ok ()) b'.machine)) b'.events :=
          hsu.congr rfl rfl fun c => by cases c <;> rfl
        obtain ⟨j, hj⟩ := ih k hk _ t' b' rfl hl ht' hsu' hu
        refine ⟨j + 1, ?_⟩
        rw [World.run_succ_of_next (u := b') (by rw [World.Next, on_advance, hstep])]
        exact hj

/-! ### Windows at rest -/

/-- What can become of a new window: its methods are called, its widgets are changed, it makes moves
by itself, and what was asked and printed is forgotten. -/
inductive Reachable : Window → Prop where
  | opened : Reachable opened
  | call {w : Window} (h : Reachable w) (args : List Value) (m : Method) :
      Reachable (w.call args m).2
  | setText {w : Window} (h : Reachable w) (widget text : String) :
      Reachable (w.setText widget text)
  | setIndex {w : Window} (h : Reachable w) (widget : String) (i : Int) :
      Reachable (w.setIndex widget i)
  | setSlider {w : Window} (h : Reachable w) (i : Int) : Reachable (w.setSlider i)
  | move {w w' : Window} (h : Reachable w) (hm : w.move? = some w') : Reachable w'
  | forget {w : Window} (h : Reachable w) : Reachable w.forget

/-- An idle window counts no reads. -/
def Rested (w : Window) : Prop := w.activity = .idle → w.ioCounter = 0

namespace Rested

variable {u : Window}

theorem congr (h : Rested w) (ha : u.activity = w.activity) (hi : u.ioCounter = w.ioCounter) :
    Rested u := by
  intro hu
  rw [hi]
  exact h (ha.symm.trans hu)

theorem of_busy (h : w.activity.isBusy = true) : Rested w := by
  intro ha
  rw [ha] at h
  cases h

end Rested

theorem isBusy_evaluate (w : Window) : w.evaluate.activity.isBusy = true := by
  unfold evaluate
  split
  · rename_i h
    exact h
  · rw [activity_log]
    rfl

theorem enter_fixed (w : Window) (c : Channel) :
    (w.enter c).2.activity = w.activity ∧ (w.enter c).2.ioCounter = w.ioCounter := by
  unfold enter append
  split <;> simp

theorem Rested.handle (h : Rested w) (i : Int) (s : Handler) : Rested (w.handle i s).2 := by
  cases s with
  | frameChosen =>
    obtain ⟨st, cells, buffer, signals, hv⟩ := w.exists_viewFrame_eq i
    rw [Window.handle, snd_attempted, hv]
    exact h
  | entered c =>
    rw [Window.handle, snd_attempted]
    exact h.congr (w.enter_fixed c).1 (w.enter_fixed c).2
  | returnPressed =>
    rw [Window.handle, snd_attempted]
    exact h.congr (w.enter_fixed _).1 (w.enter_fixed _).2
  | resetRunToEnd => exact .of_busy (isBusy_evaluate _)
  | fieldReset c | edited c =>
    exact h.congr (activity_updatePane w c _) (ioCounter_updatePane w c _)
  | _ => exact h

theorem Rested.call (h : Rested w) (args : List Value) (m : Method) :
    Rested (w.call args m).2 := by
  cases m with
  | handler s => exact h.handle _ s
  | viewFrame =>
    obtain ⟨st, cells, buffer, signals, hv⟩ := w.exists_viewFrame_eq (args.headD .nothing).asInt
    rw [Window.call, snd_attempted, hv]
    exact h
  | process c =>
    rw [Window.call, snd_attempted]
    exact h.congr (w.enter_fixed c).1 (w.enter_fixed c).2
  | evaluate | resetAll => exact .of_busy (isBusy_evaluate _)
  | write c | append c | preview c =>
    exact h.congr (activity_updatePane w c _) (ioCounter_updatePane w c _)
  | setStackDepth =>
    rw [Window.call]
    cases w.latest <;> exact h
  | _ => exact h

theorem Rested.setText (h : Rested w) (widget text : String) : Rested (w.setText widget text) := by
  unfold Window.setText
  split <;> exact h

theorem Rested.setIndex (h : Rested w) (widget : String) (i : Int) :
    Rested (w.setIndex widget i) := by
  unfold Window.setIndex
  split <;> exact h

theorem rested_told_yield (w : Window) (result : Except Fault Unit) (m : Machine) :
    Rested (told (w.yield result m)) := by
  cases result with
  | ok u => exact .of_busy rfl
  | error f => exact fun _ => rfl

theorem rested_of_move? {w' : Window} (h : w.move? = some w') : Rested w' := by
  obtain ⟨r, hp, rfl⟩ := Option.map_eq_some_iff.1 h
  obtain ⟨m, -, -, rfl⟩ | ⟨m, es, -, -, -, rfl⟩ | ⟨m, c, es, -, -, rfl⟩ |
    ⟨m, c, text, es, -, -, rfl⟩ := progress?_cases hp
  · exact fun _ => rfl
  · exact rested_told_yield _ _ _
  · exact .of_busy (by rw [told, activity_suspend]; rfl)
  · exact rested_told_yield _ _ _

theorem Reachable.rested (h : Reachable w) : Rested w := by
  induction h with
  | opened => exact .of_busy (by decide +kernel)
  | call h args m ih => exact ih.call args m
  | setText h widget text ih => exact ih.setText widget text
  | setIndex h widget i ih => exact ih.setIndex widget i
  | setSlider h i ih => exact ih
  | move h hm ih => exact rested_of_move? hm
  | forget h ih => exact ih

/-! ### The window and the interpreter -/

/-- The program of an idle window is started: nothing of the run is shown yet. -/
theorem shows_start (hr : w.Rested) (hidle : w.activity = .idle) (p : String) (i : Int)
    (t : Script) :
    let u := ((w.setText "program_input" p).handle i .resetRunToEnd).2
    let b := World.load t.lines (String.ofList (Text.trim Text.isBlank p.toList))
    u.activity = .running b.machine ∧ Shows w u b.events := by
  have hbusy : (w.setText "program_input" p).setClean.activity.isBusy = false := by
    change w.activity.isBusy = false
    rw [hidle]
    rfl
  have hrun : ((w.setText "program_input" p).handle i .resetRunToEnd).2 =
      (w.setText "program_input" p).setClean.evaluate := rfl
  dsimp only
  rw [hrun, evaluate, hbusy]
  refine ⟨?_, ?_, ?_, ?_⟩
  · simp only [World.load, String.toList_ofList]
    exact activity_log _ _
  · exact runCounter_log _ _
  · exact (ioCounter_log _ _).trans (hr hidle)
  · intro c
    have hnone : (World.load t.lines
        (String.ofList (Text.trim Text.isBlank p.toList))).events = [] := rfl
    rw [hnone, inscriptions, Inscription.renderAll_nil, String.append_empty]
    refine (congrArg Pane.transcript (pane_log _ c _)).trans ?_
    cases c <;> rfl

/-- **The window runs programs as the interpreter does.**  The program of an idle window is started,
and the texts of a script are entered one by one as it asks for them.  If the run comes to its end,
the interpreter, with the texts on its lines, comes to the end of its run too.  The window shows its
machine, has its count of runs, and leaves the texts that it left; the transcripts have grown by the
lines of its events; and the reads are no longer counted. -/
theorem attend_matches_run {left : Script} {n : Nat} (p : String) (i : Int)
    (hw : w.Reachable) (hidle : w.activity = .idle) (ht : t.Filled)
    (h : ((w.setText "program_input" p).handle i .resetRunToEnd).2.attend n t = some (v, left)) :
    ∃ k report after,
      Interpreter.run k { lines := t.lines, runCounter := w.runCounter }
        (String.ofList (Text.trim Text.isBlank p.toList)) = some (report, after) ∧
      v.shown = report.machine ∧ v.runCounter = after.runCounter ∧ after.lines = left.lines ∧
      (∀ c, (v.pane c).transcript = (w.pane c).transcript ++
        Inscription.renderAll (inscriptions w.runCounter c 0 report.events)) ∧
      v.ioCounter = 0 ∧ v.activity = .idle := by
  obtain ⟨ha, hs⟩ := shows_start hw.rested hidle p i t
  obtain ⟨k, hk⟩ := attend_run n _ t _ ha rfl ht hs h
  refine ⟨k, ?_⟩
  unfold Interpreter.run
  dsimp only
  generalize World.run k _ = verdict at hk ⊢
  cases hk with
  | @finished u b hs hl hv =>
    subst hv
    refine ⟨_, _, rfl, rfl, ?_, hl, fun c => ?_, rfl, rfl⟩
    · exact congrArg (· + 1) hs.runCounter_eq
    · rw [pane_complete, pane_counted]
      exact hs.transcript_eq c
  | @stopped u b f hs hl hv =>
    subst hv
    refine ⟨_, _, rfl, rfl, ?_, hl, fun c => ?_, rfl, rfl⟩
    · exact (runCounter_log u _).trans hs.runCounter_eq
    · have hevents : Report.events ⟨b.machine, b.history ++ [.note (.stopped f)]⟩ = b.events := by
        rw [Report.events, List.filterMap_append]
        exact List.append_nil _
      rw [pane_complete, pane_log, hevents]
      exact hs.transcript_eq c

/-- A program that reads a number from the console, writes, and reads a digit from the modem. -/
theorem attend_matches_run_both_channels :
    ∃ v left k report after,
      (((opened.settle 1).setText "program_input" " +=?>=?+++++=?\n").handle 0
        .resetRunToEnd).2.attend 20 ⟨["7"], ["3"]⟩ = some (v, left) ∧
      Interpreter.run k
          { lines := (⟨["7"], ["3"]⟩ : Script).lines, runCounter := (opened.settle 1).runCounter }
          (String.ofList (Text.trim Text.isBlank " +=?>=?+++++=?\n".toList)) =
        some (report, after) ∧
      v.shown = report.machine ∧ v.ioCounter = 0 ∧
      ∀ c, (v.pane c).transcript = ((opened.settle 1).pane c).transcript ++
        Inscription.renderAll (inscriptions (opened.settle 1).runCounter c 0 report.events) := by
  have hmove : opened.move? = some (opened.settle 1) := by rfl
  have hidle : (opened.settle 1).activity = .idle := by rfl
  have hfilled : (⟨["7"], ["3"]⟩ : Script).Filled := by
    intro c text h
    cases c with
    | console =>
      rw [List.mem_singleton.1 h]
      decide
    | modem =>
      rw [List.mem_singleton.1 h]
      decide
  obtain ⟨⟨v, left⟩, h⟩ := Option.isSome_iff_exists.1
    (show ((((opened.settle 1).setText "program_input" " +=?>=?+++++=?\n").handle 0
      .resetRunToEnd).2.attend 20 ⟨["7"], ["3"]⟩).isSome = true by decide +kernel)
  obtain ⟨k, report, after, hrun, hshown, -, -, htranscript, hio, -⟩ :=
    attend_matches_run _ 0 (.move .opened hmove) hidle hfilled h
  exact ⟨v, left, k, report, after, h, hrun, hshown, hio, htranscript⟩

end Window

end TapeMachine
