import TapeMachine.Proofs.Suspension

/-!
# What is done at a window

An `Action` is a signal that is handled, a text that is put into a field, a new text of the program,
or a move of the window.  Each is told here by what it does to the tickets, the transcripts and the
run: entering hands a text in, or leaves a line for which there is no read, or does nothing
(`Window.enter_cases`); an action that neither enters nor moves leaves all of them alone
(`Window.act_undisturbed`); and what the run does next writes on the transcripts and nothing more
(`Window.writes_of_progress?`).

A window is `Orderly` if who waits for a text is suspended and who is suspended is about to read.
Everything keeps it so (`Window.orderly_act`, `Window.orderly_of_progress?`).
-/

namespace TapeMachine

open Exec

/-- What happens at a window. -/
inductive Action where
  /-- A signal is handled. -/
  | signal (s : Handler) (i : Int)
  /-- A text is put into the field of a channel. -/
  | typed (c : Channel) (text : String)
  /-- The text of the program is replaced. -/
  | composed (text : String)
  /-- The window makes a move by itself, if it can. -/
  | moved
deriving DecidableEq, Repr

/-- The channel on which a signal enters what is in the field. -/
def Handler.enters? : Handler → Option Channel
  | .entered c => some c
  | .returnPressed => some .console
  | _ => none

/-- The channel on which an action enters what is in the field. -/
def Action.enters? : Action → Option Channel
  | .signal s _ => s.enters?
  | _ => none

/-- The text that an event hands to a read on a channel. -/
def Event.handed? (c : Channel) : Event → Option String
  | .read d (.text text) => if d = c then some text else none
  | .read _ _ => none
  | .wrote _ _ => none

/-- The text that a ticket has for its read. -/
def Ticket.given : Ticket → List String
  | .answered text => [text]
  | _ => []

namespace Window

variable {w w' : Window} {c d : Channel} {m : Machine}

/-- Carries an action out. -/
def act (w : Window) : Action → Outcome
  | .signal s i => w.handle i s
  | .typed c text => done (w.setText (c.word ++ "_input") text)
  | .composed text => done (w.setText "program_input" text)
  | .moved => done (w.move?.getD w)

/-- What is entered on a channel when its input is entered, and whether a read waits for it. -/
def attempt? (w : Window) (c : Channel) : Option (String × Bool) :=
  match (w.pane c).ticket with
  | .absent => none
  | .waiting => (w.pane c).input?.map (·, true)
  | .answered _ => (w.pane c).input?.map (·, false)

/-- What an action enters on a channel. -/
def enters (w : Window) (c : Channel) (a : Action) : List (String × Bool) :=
  if a.enters? = some c then (w.attempt? c).toList else []

/-- The texts that an action hands to reads on a channel: those that the step of a resumed program
reads. -/
def hands (w : Window) (c : Channel) : Action → List String
  | .moved =>
    match w.activity with
    | .suspended m d => (w.pane d).ticket.given.flatMap fun text =>
        (stepWith m text).2.events.filterMap (Event.handed? c)
    | _ => []
  | _ => []

/-- The text that was given to a suspended read on a channel. -/
def pending (w : Window) (c : Channel) : List String :=
  match w.activity with
  | .suspended _ d => if d = c then (w.pane c).ticket.given else []
  | _ => []

theorem hands_of_ne_moved {a : Action} (h : a ≠ .moved) (c : Channel) : w.hands c a = [] := by
  cases a with
  | moved => exact absurd rfl h
  | _ => rfl

/-- Who waits for a text is suspended, and who is suspended is about to read. -/
structure Orderly (w : Window) : Prop where
  suspended : ∀ c, (w.pane c).ticket = .waiting → ∃ m, w.activity = .suspended m c
  inquiry : ∀ m c, w.activity = .suspended m c → m.inquiry? = some c

theorem events_stepWith (hq : m.inquiry? = some d) (text : String) :
    (stepWith m text).2.events = [.read d (.text text)] := by
  rw [stepWith_eq, World.events, history_step_world, events_world hq]

/-- A move hands over what is pending. -/
theorem hands_moved (h : w.Orderly) (c : Channel) : w.hands c .moved = w.pending c := by
  cases ha : w.activity with
  | idle | running m => simp only [hands, pending, ha]
  | suspended m d =>
    have hevents := events_stepWith (h.inquiry m d ha)
    simp only [hands, pending, ha, hevents]
    by_cases hd : d = c
    · subst hd
      simp [Event.handed?]
    · simp [Event.handed?, hd]

/-! ### What an action leaves as it was -/

/-- The reads are as they were, and no program was moved on, though one may have been started. -/
structure Unmoved (w w' : Window) : Prop where
  ticket_eq : ∀ c, (w'.pane c).ticket = (w.pane c).ticket
  activity : w'.activity = w.activity ∨ w.activity = .idle ∧ ∃ m, w'.activity = .running m

/-- Beside that, nothing was written in the transcripts. -/
structure Undisturbed (w w' : Window) : Prop extends Unmoved w w' where
  transcript_eq : ∀ c, (w'.pane c).transcript = (w.pane c).transcript

namespace Unmoved

theorem orderly (h : Unmoved w w') (ho : w.Orderly) : w'.Orderly where
  suspended c hc := by
    rw [h.ticket_eq] at hc
    obtain ⟨m, hm⟩ := ho.suspended c hc
    obtain ha | ⟨hidle, -⟩ := h.activity
    · exact ⟨m, ha.trans hm⟩
    · cases hidle.symm.trans hm
  inquiry m c hm := by
    obtain ha | ⟨-, m', hrun⟩ := h.activity
    · exact ho.inquiry m c (ha.symm.trans hm)
    · cases hrun.symm.trans hm

theorem pending_eq (h : Unmoved w w') (c : Channel) : w'.pending c = w.pending c := by
  unfold pending
  obtain ha | ⟨hidle, m', hrun⟩ := h.activity
  · rw [ha, h.ticket_eq]
  · rw [hidle, hrun]

end Unmoved

namespace Undisturbed

/-- The panes and the activity are the same. -/
theorem of_eq (hp : ∀ c, w'.pane c = w.pane c) (ha : w'.activity = w.activity) :
    Undisturbed w w' :=
  ⟨⟨fun c => by rw [hp], .inl ha⟩, fun c => by rw [hp]⟩

theorem updatePane (w : Window) (c : Channel) {f : Pane → Pane}
    (ht : ∀ p, (f p).ticket = p.ticket) (hl : ∀ p, (f p).transcript = p.transcript) :
    Undisturbed w (w.updatePane c f) where
  ticket_eq d := by
    rw [pane_updatePane]
    split
    · exact ht _
    · rfl
  transcript_eq d := by
    rw [pane_updatePane]
    split
    · exact hl _
    · rfl
  activity := .inl (activity_updatePane w c f)

theorem trans {u : Window} (h : Undisturbed w u) (hu : Undisturbed u w') : Undisturbed w w' where
  ticket_eq c := (hu.ticket_eq c).trans (h.ticket_eq c)
  transcript_eq c := (hu.transcript_eq c).trans (h.transcript_eq c)
  activity := by
    obtain ha | ⟨hidle, hrun⟩ := hu.activity
    · rw [ha]
      exact h.activity
    · obtain ha | ⟨-, m, hm⟩ := h.activity
      · exact .inr ⟨ha.symm.trans hidle, hrun⟩
      · cases hidle.symm.trans hm

end Undisturbed

theorem evaluate_undisturbed (w : Window) : Undisturbed w w.evaluate := by
  unfold evaluate
  split
  · exact .of_eq (fun c => by cases c <;> rfl) rfl
  · rename_i hbusy
    refine ⟨⟨fun c => ?_, .inr ⟨?_, ?_⟩⟩, fun c => ?_⟩
    · rw [pane_log]
      cases c <;> rfl
    · cases ha : w.activity with
      | idle => rfl
      | running m | suspended m d => exact absurd (by rw [ha]; rfl) hbusy
    · rw [activity_log]
      exact ⟨_, rfl⟩
    · rw [pane_log]
      cases c <;> rfl

/-- A signal that enters nothing disturbs nothing. -/
theorem handle_undisturbed {s : Handler} (hs : s.enters? = none) (i : Int) :
    Undisturbed w (w.handle i s).2 := by
  cases s with
  | entered c | returnPressed => cases hs
  | frameChosen =>
    obtain ⟨status, cells, buffer, signals, hv⟩ := w.exists_viewFrame_eq i
    rw [handle, snd_attempted, hv]
    exact .of_eq (fun c => by cases c <;> rfl) rfl
  | resetRunToEnd =>
    have hclean : Undisturbed w w.setClean := .of_eq (fun c => by cases c <;> rfl) rfl
    exact hclean.trans (evaluate_undisturbed w.setClean)
  | fieldReset c =>
    exact Undisturbed.updatePane w c (f := fun p => { p with field := "" }) (fun _ => rfl)
      (fun _ => rfl)
  | edited c =>
    exact Undisturbed.updatePane w c (f := fun p => { p with preview := p.input?.getD "" })
      (fun _ => rfl) (fun _ => rfl)
  | _ => exact .of_eq (fun c => by cases c <;> rfl) rfl

theorem typed_undisturbed (w : Window) (c : Channel) (text : String) :
    Undisturbed w (w.setText (c.word ++ "_input") text) := by
  rw [setText_input]
  exact Undisturbed.updatePane w c (fun _ => rfl) (fun _ => rfl)

theorem composed_undisturbed (w : Window) (text : String) :
    Undisturbed w (w.setText "program_input" text) :=
  .of_eq (fun c => by cases c <;> rfl) rfl

/-- **An action that neither enters nor moves disturbs nothing.** -/
theorem act_undisturbed {a : Action} (ha : a.enters? = none) (hm : a ≠ .moved) :
    Undisturbed w (w.act a).2 := by
  cases a with
  | signal s i => exact handle_undisturbed ha i
  | typed c text => exact w.typed_undisturbed c text
  | composed text => exact w.composed_undisturbed text
  | moved => exact absurd rfl hm

/-! ### The run -/

/-- Only what was written is added to the transcript, and the ticket is as it was or waits. -/
structure Writes (p q : Pane) : Prop where
  ticket : q.ticket = p.ticket ∨ q.ticket = .waiting
  transcript : ∃ is : List Inscription, (∀ i ∈ is, i.isOutput = true) ∧
    q.transcript = p.transcript ++ Inscription.renderAll is

theorem writes_inscribe (p : Pane) {is : List Inscription} (h : ∀ i ∈ is, i.isOutput = true) :
    Writes p (p.inscribe is) :=
  ⟨.inl rfl, is, h, rfl⟩

theorem writes_of_eq {p q : Pane} (ht : q.ticket = p.ticket) (hl : q.transcript = p.transcript) :
    Writes p q :=
  ⟨.inl ht, [], nofun, by rw [hl, Inscription.renderAll_nil, String.append_empty]⟩

theorem writes_display (w : Window) (es : List Entry) (c : Channel) :
    Writes (w.pane c) ((w.display es).pane c) := by
  rw [pane_display]
  refine writes_inscribe _ fun i hi => ?_
  obtain ⟨e, -, he⟩ := List.mem_filterMap.1 hi
  cases e with
  | note n => cases he
  | event x =>
    cases x with
    | read d reply => cases he
    | wrote d text =>
      rw [Entry.output?] at he
      split at he
      · cases he
        rfl
      · cases he

theorem writes_suspend {u : Window} (h : Writes (w.pane d) (u.pane d)) (m : Machine) (c : Channel) :
    Writes (w.pane d) ((u.suspend m c).pane d) := by
  rw [pane_suspend]
  split
  · exact ⟨.inr rfl, h.transcript⟩
  · exact h

/-- What the run does next only writes on the transcripts. -/
theorem writes_of_progress? {ended : Option Machine} (h : w.progress? = some (w', ended))
    (c : Channel) : Writes (w.pane c) (w'.pane c) := by
  obtain ⟨m, -, -, heq⟩ | ⟨m, es, -, -, -, heq⟩ | ⟨m, d, es, -, -, heq⟩ |
    ⟨m, d, text, es, -, -, heq⟩ := progress?_cases h
  · obtain ⟨rfl, -⟩ := Prod.ext_iff.1 heq
    rw [pane_counted]
    exact writes_of_eq rfl rfl
  · obtain ⟨rfl, -⟩ := Prod.ext_iff.1 heq
    rw [pane_yield]
    exact w.writes_display es c
  · obtain ⟨rfl, -⟩ := Prod.ext_iff.1 heq
    exact writes_suspend (w.writes_display es c) m d
  · obtain ⟨rfl, -⟩ := Prod.ext_iff.1 heq
    rw [pane_yield]
    have hdisplay := (w.setBlocking d false).writes_display es c
    rwa [pane_setBlocking] at hdisplay

theorem ticket_display (w : Window) (es : List Entry) (c : Channel) :
    ((w.display es).pane c).ticket = (w.pane c).ticket := by
  rw [pane_display]
  rfl

/-- Where no program is suspended and no ticket waits, all is in order and nothing pending. -/
theorem orderly_of_not_suspended (ha : ∀ m c, w.activity ≠ .suspended m c)
    (ht : ∀ c, (w.pane c).ticket ≠ .waiting) : w.Orderly ∧ ∀ c, w.pending c = [] := by
  refine ⟨⟨fun c hc => absurd hc (ht c), fun m c hm => absurd hm (ha m c)⟩, fun c => ?_⟩
  unfold pending
  split
  · rename_i m d hm
    exact absurd hm (ha m d)
  · rfl

/-- **What the run does next keeps the order**, and it leaves nothing pending. -/
theorem orderly_of_progress? {ended : Option Machine} (ho : w.Orderly)
    (h : w.progress? = some (w', ended)) : w'.Orderly ∧ ∀ c, w'.pending c = [] := by
  -- While a program is running no ticket waits.
  have hrunning : ∀ m, w.activity = .running m → ∀ c, (w.pane c).ticket ≠ .waiting := by
    intro m hm c hc
    obtain ⟨m', hm'⟩ := ho.suspended c hc
    cases hm.symm.trans hm'
  have hyield : ∀ (u : Window) (result : Except Fault Unit) (m : Machine),
      (∀ c, (u.pane c).ticket ≠ .waiting) →
      (u.yield result m).1.Orderly ∧ ∀ c, (u.yield result m).1.pending c = [] := by
    intro u result m ht
    refine orderly_of_not_suspended (fun m' c hm' => ?_) fun c => ?_
    · cases (activity_yield u result m).symm.trans hm'
    · rw [pane_yield]
      exact ht c
  obtain ⟨m, hm, -, heq⟩ | ⟨m, es, hm, -, -, heq⟩ | ⟨m, d, es, hm, hq, heq⟩ |
    ⟨m, d, text, es, hm, ht, heq⟩ := progress?_cases h
  · obtain ⟨rfl, -⟩ := Prod.ext_iff.1 heq
    refine orderly_of_not_suspended (fun m' c hm' => ?_) fun c => ?_
    · cases hm.symm.trans hm'
    · rw [pane_counted]
      exact hrunning m hm c
  · obtain ⟨rfl, -⟩ := Prod.ext_iff.1 heq
    refine hyield _ _ _ fun c => ?_
    rw [ticket_display]
    exact hrunning m hm c
  · obtain ⟨rfl, -⟩ := Prod.ext_iff.1 heq
    refine ⟨⟨fun c hc => ?_, fun m' c hm' => ?_⟩, fun c => ?_⟩
    · rw [pane_suspend] at hc
      split at hc
      · rename_i hd
        exact ⟨m, hd ▸ activity_suspend _ m d⟩
      · rw [ticket_display] at hc
        exact absurd hc (hrunning m hm c)
    · rw [activity_suspend] at hm'
      cases hm'
      exact hq
    · simp only [pending, activity_suspend, pane_suspend]
      by_cases hd : d = c <;> simp [hd, Ticket.given]
  · obtain ⟨rfl, -⟩ := Prod.ext_iff.1 heq
    refine hyield _ _ _ fun c hc => ?_
    rw [ticket_display, pane_setBlocking] at hc
    obtain ⟨m', hm'⟩ := ho.suspended c hc
    cases hm.symm.trans hm'
    cases ht.symm.trans hc

theorem orderly_opened : opened.Orderly := by
  have hticket : ∀ c, (opened.pane c).ticket = .absent := by
    intro c
    cases c <;> rfl
  obtain ⟨m, hm⟩ : ∃ m, opened.activity = .running m := ⟨_, rfl⟩
  refine (orderly_of_not_suspended (fun m' c hm' => ?_) fun c hc => ?_).1
  · cases hm.symm.trans hm'
  · cases (hticket c).symm.trans hc

theorem length_pending_le (w : Window) (c : Channel) : (w.pending c).length ≤ 1 := by
  unfold pending
  split
  · split
    · cases (w.pane c).ticket <;> simp [Ticket.given]
    · exact Nat.zero_le 1
  · exact Nat.zero_le 1

/-- Where the run cannot go on nothing is pending. -/
theorem pending_of_progress?_eq_none (h : w.progress? = none) (c : Channel) :
    w.pending c = [] := by
  cases ha : w.activity with
  | idle | running m => simp only [pending, ha]
  | suspended m d =>
    simp only [pending, ha]
    by_cases hd : d = c
    · subst hd
      rw [progress?, ha] at h
      cases ht : (w.pane d).ticket with
      | absent | waiting => simp [Ticket.given]
      | answered text => simp [ht] at h
    · rw [if_neg hd]

/-! ### Entering -/

theorem enters_of_enters? {a : Action} (ha : a.enters? = some d) :
    w.enters c a = if d = c then (w.attempt? d).toList else [] := by
  by_cases hd : d = c
  · subst hd
    simp [enters, ha]
  · simp [enters, ha, hd]

theorem act_of_enters? {a : Action} (ha : a.enters? = some c) :
    w.act a = attempted (w.enter c) := by
  cases a with
  | signal s i => cases s <;> cases ha <;> rfl
  | typed d text | composed text | moved => cases ha

theorem orderly_handIn (ho : w.Orderly) (c : Channel) : (w.handIn c).Orderly where
  suspended d hd := by
    rw [activity_handIn]
    rw [pane_handIn] at hd
    split at hd
    · cases hd
    · exact ho.suspended d hd
  inquiry m d hm := ho.inquiry m d ((activity_handIn w c).symm.trans hm)

/-- A text for which a read waits is pending when it was handed in. -/
theorem pending_handIn (ho : w.Orderly) (hc : (w.pane c).ticket = .waiting) (d : Channel) :
    (w.handIn c).pending d = w.pending d ++ if c = d then [(w.pane c).field] else [] := by
  obtain ⟨m, hm⟩ := ho.suspended c hc
  simp only [pending, activity_handIn, hm, pane_handIn]
  by_cases hd : c = d
  · subst hd
    simp [hc, Ticket.given]
  · simp [hd]

theorem unmoved_append (w : Window) (c : Channel) (isOutput : Bool) (text : String) :
    Unmoved w (w.append c isOutput text) where
  ticket_eq d := by
    rw [pane_append]
    rfl
  activity := .inl (activity_updatePane w c _)

/-- **What entering can do**: nothing, hand in a text for which a read waits, or end in a fault with
a line in the transcript. -/
theorem enter_cases (w : Window) (c : Channel) :
    (w.attempt? c = none ∧ w.enter c = (.ok (), w)) ∨
    ((w.pane c).ticket = .waiting ∧ w.attempt? c = some ((w.pane c).field, true) ∧
      w.enter c = (.ok (), w.handIn c)) ∨
    ((∃ text, (w.pane c).ticket = .answered text) ∧
      w.attempt? c = some ((w.pane c).field, false) ∧
      w.enter c = (.error .answeredRead, w.append c false (w.pane c).field)) := by
  by_cases hf : (w.pane c).field = ""
  · refine .inl ⟨?_, w.enter_eq_self (.inr hf)⟩
    have hinput : (w.pane c).input? = none := by
      rw [Pane.input?, hf]
      rfl
    rw [attempt?, hinput]
    cases (w.pane c).ticket <;> rfl
  · have hinput := input?_of_field hf
    cases ht : (w.pane c).ticket with
    | absent =>
      refine .inl ⟨?_, w.enter_eq_self (.inl ht)⟩
      rw [attempt?, ht]
    | waiting =>
      refine .inr (.inl ⟨rfl, ?_, w.enter_of_waiting ht hf⟩)
      rw [attempt?, ht, hinput]
      rfl
    | answered text =>
      refine .inr (.inr ⟨⟨text, rfl⟩, ?_, w.enter_of_answered ht hf⟩)
      rw [attempt?, ht, hinput]
      rfl

/-- **What an action that is not a move adds to a transcript**: what it enters. -/
theorem transcript_act (w : Window) {a : Action} (hm : a ≠ .moved) (c : Channel) :
    ((w.act a).2.pane c).transcript = (w.pane c).transcript ++ Inscription.renderAll
      ((w.enters c a).map fun x => w.inscription false x.1) := by
  cases ha : a.enters? with
  | none =>
    have henters : w.enters c a = [] := by simp [enters, ha]
    rw [henters, List.map_nil, Inscription.renderAll_nil, String.append_empty]
    exact (act_undisturbed ha hm).transcript_eq c
  | some d =>
    -- Entering writes at most one line, on its own channel.
    rw [act_of_enters? ha, snd_attempted, enters_of_enters? ha]
    by_cases hd : d = c
    · subst hd
      obtain ⟨hx, he⟩ | ⟨-, hx, he⟩ | ⟨-, hx, he⟩ := w.enter_cases d
      · simp [hx, he]
      · simp [hx, he, pane_handIn, Pane.inscribe]
      · simp [hx, he, pane_append, Pane.inscribe]
    · obtain ⟨-, he⟩ | ⟨-, -, he⟩ | ⟨-, -, he⟩ := w.enter_cases d
      · simp [hd, he]
      · simp [hd, he, pane_handIn]
      · simp [hd, he, pane_append]

/-- Whatever is done at the window and is not a move keeps the order. -/
theorem orderly_act (ho : w.Orderly) {a : Action} (ha : a ≠ .moved) : (w.act a).2.Orderly := by
  cases he : a.enters? with
  | none => exact (act_undisturbed he ha).toUnmoved.orderly ho
  | some c =>
    rw [act_of_enters? he, snd_attempted]
    obtain ⟨-, heq⟩ | ⟨-, -, heq⟩ | ⟨-, -, heq⟩ := w.enter_cases c
    · rw [heq]
      exact ho
    · rw [heq]
      exact orderly_handIn ho c
    · rw [heq]
      exact (w.unmoved_append c false _).orderly ho

end Window

end TapeMachine
