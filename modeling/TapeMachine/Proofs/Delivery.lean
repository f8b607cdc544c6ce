import TapeMachine.Proofs.Publication

/-!
# What becomes of the texts that are entered

Whatever is done at a window, in whatever order with the steps of its loop and over however many
runs, a text that is entered while a read waits for it is given to that read and to no other, and
texts are given in the order in which they were entered.  The ticket of a channel stays answered
after its read has the text, however, until the next read.  Until then a text that is entered is
written in the transcript and given to no read, and the entering ends in a fault
(`Ledger.entered_delivered`).

A `Ledger` follows the journal of the window and keeps what was entered and what was handed to
reads.  An action keeps the two in balance (`Ledger.Balanced.act`): what was entered while a read
waited is what was handed over, and at most one text that the next step of the loop hands over
(`Window.pending`).
-/

namespace TapeMachine

/-- The texts of the lines that were entered. -/
def Inscription.inputs (is : List Inscription) : List String :=
  (is.filter fun i => !i.isOutput).map Inscription.text

theorem Inscription.inputs_append (is js : List Inscription) :
    inputs (is ++ js) = inputs is ++ inputs js := by
  simp [inputs]

theorem Inscription.inputs_eq_nil {is : List Inscription} (h : ∀ i ∈ is, i.isOutput = true) :
    inputs is = [] := by
  rw [inputs, List.filter_eq_nil_iff.2 fun i hi => by simp [h i hi], List.map_nil]

theorem Window.inputs_map_inscription (w : Window) (xs : List (String × Bool)) :
    Inscription.inputs (xs.map fun x => w.inscription false x.1) = xs.map Prod.fst := by
  induction xs with
  | nil => rfl
  | cons x xs ih => exact congrArg (x.1 :: ·) ih

/-! ### The balance of a window -/

namespace Window

variable {w u : Window} {c : Channel} {m : Machine} {accepted handed : Channel → List String}

theorem pending_of_running (ha : w.activity = .running m) (c : Channel) : w.pending c = [] := by
  rw [pending, ha]

theorem pending_of_handover? {text : String} (h : w.handover? = some (c, text)) (d : Channel) :
    w.pending d = if c = d then [text] else [] := by
  unfold handover? at h
  split at h
  · rename_i m e ha
    obtain ⟨t, ht, heq⟩ := Option.map_eq_some_iff.1 h
    cases heq
    rw [pending, ha]
    by_cases hd : c = d
    · subst hd
      cases hticket : (w.pane c).ticket <;> rw [hticket] at ht <;> cases ht
      rfl
    · simp [hd]
  · cases h

theorem pending_of_handover?_eq_none (h : w.handover? = none) (d : Channel) :
    w.pending d = [] := by
  unfold handover? at h
  split at h
  · rename_i m e ha
    rw [pending, ha]
    by_cases hd : e = d
    · subst hd
      simpa using h
    · simp [hd]
  · rename_i hne
    unfold pending
    split
    · rename_i m e ha
      exact absurd ha (hne m e)
    · rfl

/-- What was accepted was handed over, or is about to be; and the tickets tell whether anything was
accepted. -/
structure Balances (w : Window) (accepted handed : Channel → List String) : Prop where
  absent : ∀ c, (w.pane c).ticket = .absent → accepted c = []
  answered : ∀ c text, (w.pane c).ticket = .answered text → accepted c ≠ []
  balance : ∀ c, accepted c = handed c ++ w.pending c

namespace Balances

theorem unmoved (h : w.Balances accepted handed) (hu : Unmoved w u) :
    u.Balances accepted handed where
  absent c hc := h.absent c ((hu.ticket_eq c).symm.trans hc)
  answered c text hc := h.answered c text ((hu.ticket_eq c).symm.trans hc)
  balance c := by
    rw [hu.pending_eq]
    exact h.balance c

/-- A text is entered for which a read waits. -/
theorem handIn (h : w.Balances accepted handed) (ho : w.Orderly)
    (hc : (w.pane c).ticket = .waiting) :
    (w.handIn c).Balances (fun d => accepted d ++ if c = d then [(w.pane c).field] else [])
      handed where
  absent d hd := by
    rw [pane_handIn] at hd
    split at hd
    · cases hd
    · rename_i hne
      rw [if_neg hne, List.append_nil]
      exact h.absent d hd
  answered d text hd := by
    rw [pane_handIn] at hd
    split at hd
    · rename_i heq
      simp [heq]
    · simp [h.answered d text hd]
  balance d := by
    rw [pending_handIn ho hc, h.balance d, List.append_assoc]

/-- What the run does next hands over what is pending. -/
theorem progress {ended : Option Machine} (h : w.Balances accepted handed) (ho : w.Orderly)
    (hp : w.progress? = some (u, ended)) :
    u.Balances accepted fun c => handed c ++ w.pending c := by
  have hwrites := writes_of_progress? hp
  refine ⟨fun c hc => ?_, fun c text hc => ?_, fun c => ?_⟩
  · obtain ht | ht := (hwrites c).ticket
    · exact h.absent c (ht.symm.trans hc)
    · cases ht.symm.trans hc
  · obtain ht | ht := (hwrites c).ticket
    · exact h.answered c text (ht.symm.trans hc)
    · cases ht.symm.trans hc
  · rw [(orderly_of_progress? ho hp).2, List.append_nil]
    exact h.balance c

/-- The window is told of a run that is over. -/
theorem complete (h : w.Balances accepted handed) (ha : w.activity = .running m) :
    (w.complete m).Balances accepted handed where
  absent c hc := h.absent c (by rwa [pane_complete] at hc)
  answered c text hc := h.answered c text (by rwa [pane_complete] at hc)
  balance c := by
    rw [h.balance c, pending_of_running ha]
    rfl

end Balances

end Window

/-! ### The texts of the runs -/

theorem Script.get_add (t : Script) (c d : Channel) (text : String) :
    (t.add c text).get d = t.get d ++ if c = d then [text] else [] := by
  cases c <;> cases d <;> simp [add, get]

namespace Journal

open Window

variable {j : Journal}

/-- The texts that were handed to reads on a channel, in the order of the runs. -/
def texts (j : Journal) (c : Channel) : List String :=
  j.started.reverse.flatMap fun r => r.texts.get c

/-- The texts that an action hands to reads on a channel; the completion of a run hands over none. -/
def hands (j : Journal) (c : Channel) (a : Action) : List String :=
  match j.due with
  | some _ => []
  | none => j.window.hands c a

theorem texts_attend (j : Journal) (a : Action) (c : Channel) :
    (j.attend a).texts c = j.texts c := by
  unfold attend texts
  dsimp only
  split
  · rw [List.reverse_cons, List.flatMap_append]
    cases c <;> exact List.append_nil _
  · rfl

/-- What is pending goes to the run that is in progress. -/
theorem texts_handOver (h : j.Kept) (c : Channel) :
    { j with started := handOver j.started j.window.handover? }.texts c =
      j.texts c ++ j.window.pending c := by
  unfold texts
  cases hh : j.window.handover? with
  | none =>
    rw [pending_of_handover?_eq_none hh, List.append_nil]
    rfl
  | some x =>
    obtain ⟨d, text⟩ := x
    have hbusy : ∃ m, j.window.activity.machine? = some m := by
      unfold handover? at hh
      split at hh
      · rename_i m e ha
        exact ⟨m, by rw [ha]; rfl⟩
      · cases hh
    obtain ⟨m, hm⟩ := hbusy
    obtain ⟨r, rs, hj, -, -⟩ := h.busy m hm
    have hlast : handOver (r :: rs) (some (d, text)) = r.hand d text :: rs := rfl
    rw [pending_of_handover? hh, hj, hlast, List.reverse_cons, List.flatMap_append,
      List.reverse_cons, List.flatMap_append, List.append_assoc]
    simp [Job.hand, Script.get_add]

/-- **What an action adds to a transcript**: what was written, and what it enters. -/
theorem transcript_act (j : Journal) (a : Action) (c : Channel) :
    ∃ outs : List Inscription, (∀ i ∈ outs, i.isOutput = true) ∧
      ((j.act a).window.pane c).transcript = (j.window.pane c).transcript ++ Inscription.renderAll
        (outs ++ (j.window.enters c a).map fun x => j.window.inscription false x.1) := by
  by_cases ha : a = .moved
  · subst ha
    have henters : j.window.enters c .moved = [] := rfl
    rw [henters, List.map_nil]
    obtain ⟨m, -, hact⟩ | hact | ⟨u, ended, hp, hact⟩ | ⟨hm, -⟩ := j.act_cases .moved
    · rw [hact]
      exact ⟨[], nofun, by simp⟩
    · rw [hact]
      exact ⟨[], nofun, by simp⟩
    · rw [hact]
      obtain ⟨outs, houts, ht⟩ := (writes_of_progress? hp c).transcript
      exact ⟨outs, houts, by simpa using ht⟩
    · exact absurd rfl hm
  · refine ⟨[], nofun, ?_⟩
    rw [act, if_neg ha]
    exact j.window.transcript_act ha c

end Journal

/-! ### The ledger -/

/-- The journal of a window with what was entered, and what was handed to reads, on each channel. -/
structure Ledger where
  journal : Journal
  /-- The texts that were entered, each with whether a read waited for it. -/
  entered : Channel → List (String × Bool)
  /-- The texts that were handed to reads. -/
  handed : Channel → List String

namespace Ledger

open Window

variable {l : Ledger} {a : Action} {c : Channel}

/-- The ledger of a new window. -/
def new : Ledger := ⟨.new, fun _ => [], fun _ => []⟩

/-- The ledger after an action; a move is one step of the loop. -/
def act (l : Ledger) (a : Action) : Ledger where
  journal := l.journal.act a
  entered c := l.entered c ++ l.journal.window.enters c a
  handed c := l.handed c ++ l.journal.hands c a

theorem journal_act (l : Ledger) (a : Action) : (l.act a).journal = l.journal.act a := rfl

theorem handed_act (l : Ledger) (a : Action) (c : Channel) :
    (l.act a).handed c = l.handed c ++ l.journal.hands c a := rfl

/-- The ledger of a window at which actions were carried out. -/
def after (as : List Action) : Ledger := as.foldl act new

theorem journal_after (as : List Action) : (after as).journal = .after as :=
  (List.foldl_hom Ledger.journal fun _ _ => rfl).symm

/-- The texts that were entered while a read waited. -/
def accepted (l : Ledger) (c : Channel) : List String :=
  ((l.entered c).filter Prod.snd).map Prod.fst

theorem accepted_act (l : Ledger) (a : Action) (c : Channel) : (l.act a).accepted c =
    l.accepted c ++ ((l.journal.window.enters c a).filter Prod.snd).map Prod.fst := by
  rw [accepted, act, List.filter_append, List.map_append]
  rfl

theorem accepted_act_of_attempt? {text : String} {b : Bool} (ha : a.enters? = some c)
    (hx : l.journal.window.attempt? c = some (text, b)) (d : Channel) :
    (l.act a).accepted d = l.accepted d ++ if c = d then (if b then [text] else []) else [] := by
  rw [accepted_act, enters_of_enters? ha, hx]
  by_cases hd : c = d <;> cases b <;> simp [hd]

theorem accepted_act_of_attempt?_eq_none (ha : a.enters? = some c)
    (hx : l.journal.window.attempt? c = none) : (l.act a).accepted = l.accepted := by
  funext d
  rw [accepted_act, enters_of_enters? ha, hx]
  by_cases hd : c = d <;> simp [hd]

/-- What was accepted was handed over, or is about to be; and what was handed over went to the
runs. -/
structure Balanced (l : Ledger) : Prop where
  kept : l.journal.Kept
  window : l.journal.window.Balances l.accepted l.handed
  runs : ∀ c, l.handed c = l.journal.texts c

namespace Balanced

theorem new : Balanced new where
  kept := .new
  window :=
    { absent := fun _ _ => rfl
      answered := fun c text hc => by cases c <;> cases hc
      balance := fun _ => rfl }
  runs c := by cases c <;> rfl

/-- A step of the loop hands over what is pending. -/
theorem moved (h : l.Balanced) : Balanced (l.act .moved) := by
  have hkept : (l.act .moved).journal.Kept := h.kept.act .moved
  have hjournal : (l.act .moved).journal = l.journal.tick :=
    (journal_act l .moved).trans (if_pos rfl)
  have haccepted : (l.act .moved).accepted = l.accepted := by
    funext c
    rw [accepted_act]
    exact List.append_nil _
  cases hd : l.journal.due with
  | some m =>
    have hhanded : (l.act .moved).handed = l.handed := by
      funext c
      rw [handed_act, Journal.hands, hd]
      exact List.append_nil _
    refine ⟨hkept, ?_, ?_⟩
    · rw [haccepted, hhanded, hjournal, Journal.tick, hd]
      exact h.window.complete (h.kept.ended m hd)
    · rw [hhanded, hjournal, Journal.tick, hd]
      exact h.runs
  | none =>
    have hhanded : (l.act .moved).handed =
        fun c => l.handed c ++ l.journal.window.pending c := by
      funext c
      rw [handed_act, Journal.hands, hd]
      exact congrArg (l.handed c ++ ·) (hands_moved h.kept.orderly c)
    cases hp : l.journal.window.progress? with
    | none =>
      simp only [pending_of_progress?_eq_none hp, List.append_nil] at hhanded
      refine ⟨hkept, ?_, ?_⟩
      · rw [haccepted, hhanded, hjournal, Journal.tick, hd, hp]
        exact h.window
      · rw [hhanded, hjournal, Journal.tick, hd, hp]
        exact h.runs
    | some p =>
      obtain ⟨u, ended⟩ := p
      rw [Journal.tick_of_progress? hd hp] at hjournal
      refine ⟨hkept, ?_, fun c => ?_⟩
      · rw [haccepted, hhanded, hjournal]
        exact h.window.progress h.kept.orderly hp
      · rw [hhanded, hjournal]
        exact (congrArg (· ++ _) (h.runs c)).trans (Journal.texts_handOver h.kept c).symm

/-- What is done at the window and enters something hands a text in, adds a line for which there is
no read, or does nothing. -/
theorem enter (h : l.Balanced) (ha : a.enters? = some c) :
    (l.journal.window.act a).2.Balances (l.act a).accepted l.handed := by
  rw [act_of_enters? ha, snd_attempted]
  obtain ⟨hattempt, henter⟩ | ⟨hticket, hattempt, henter⟩ | ⟨-, hattempt, henter⟩ :=
    l.journal.window.enter_cases c
  · rw [accepted_act_of_attempt?_eq_none ha hattempt, henter]
    exact h.window
  · rw [funext (accepted_act_of_attempt? ha hattempt), henter]
    exact h.window.handIn h.kept.orderly hticket
  · have haccepted : (l.act a).accepted = l.accepted := by
      funext d
      rw [accepted_act_of_attempt? ha hattempt]
      split <;> exact List.append_nil _
    rw [haccepted, henter]
    exact h.window.unmoved (l.journal.window.unmoved_append c false _)

/-- **An action keeps the balance.** -/
theorem act (h : l.Balanced) (a : Action) : Balanced (l.act a) := by
  by_cases hm : a = .moved
  · rw [hm]
    exact h.moved
  · have hjournal : (l.act a).journal = l.journal.attend a :=
      (journal_act l a).trans (if_neg hm)
    have hhanded : (l.act a).handed = l.handed := by
      funext c
      have hhands : l.journal.hands c a = [] := by
        unfold Journal.hands
        split
        · rfl
        · exact hands_of_ne_moved hm c
      rw [handed_act, hhands, List.append_nil]
    refine ⟨h.kept.act a, ?_, fun c => ?_⟩
    · rw [hhanded, hjournal]
      cases ha : a.enters? with
      | some c => exact h.enter ha
      | none =>
        have haccepted : (l.act a).accepted = l.accepted := by
          funext c
          rw [accepted_act, enters, ha]
          exact List.append_nil _
        rw [haccepted]
        exact h.window.unmoved (act_undisturbed ha hm).toUnmoved
    · rw [hhanded, hjournal, Journal.texts_attend]
      exact h.runs c

theorem after (as : List Action) : (after as).Balanced :=
  List.foldlRecOn (motive := Balanced) as Ledger.act new fun _ h a _ => h.act a

end Balanced

/-- What was entered is in the transcript. -/
def Inscribed (l : Ledger) : Prop :=
  ∀ c, ∃ is, (l.journal.window.pane c).transcript = Inscription.renderAll is ∧
    Inscription.inputs is = (l.entered c).map Prod.fst

namespace Inscribed

theorem new : Inscribed new := by
  intro c
  refine ⟨[], ?_, rfl⟩
  cases c <;> rfl

/-- An action adds its lines to the transcript. -/
theorem act (h : l.Inscribed) (a : Action) : Inscribed (l.act a) := by
  intro c
  obtain ⟨is, hl, hi⟩ := h c
  obtain ⟨outs, houts, ha⟩ := l.journal.transcript_act a c
  refine ⟨is ++ (outs ++ (l.journal.window.enters c a).map fun x =>
    l.journal.window.inscription false x.1), ?_, ?_⟩
  · rw [Inscription.renderAll_append, ← hl]
    exact ha
  · rw [Inscription.inputs_append, Inscription.inputs_append, Inscription.inputs_eq_nil houts, hi]
    rw [inputs_map_inscription, List.nil_append, ← List.map_append]
    rfl

theorem after (as : List Action) : (after as).Inscribed :=
  List.foldlRecOn (motive := Inscribed) as Ledger.act new fun _ h a _ => h.act a

end Inscribed

/-- **What becomes of the texts that are entered.**  Whatever was done at a window, in whatever order
with the steps of its loop and over however many runs, the lines of texts that were entered on a
channel stand in its transcript in the order in which they were entered.  Those that were entered
while a read waited were handed to reads, each once and in this order, except that the last may be
about to be; and they went to the runs in the order in which these were started.

While a read waits, to enter what is in the field hands it in, unless the field is empty, and does
not end in a fault.  While none waits it changes nothing, as long as the field is empty or no text
was ever accepted on the channel; otherwise it ends in a fault, and a line is left in the transcript
that belongs to no read. -/
theorem entered_delivered (as : List Action) (c : Channel) :
    let l := after as
    let w := (Journal.after as).window
    (∃ is, (w.pane c).transcript = Inscription.renderAll is ∧
      Inscription.inputs is = (l.entered c).map Prod.fst) ∧
    l.accepted c = l.handed c ++ w.pending c ∧ (w.pending c).length ≤ 1 ∧
    l.handed c = (Journal.after as).texts c ∧
    ∀ a : Action, a.enters? = some c →
      ((w.pane c).isWaiting = true →
        w.act a = (.ok none, if (w.pane c).field = "" then w else w.handIn c)) ∧
      ((w.pane c).isWaiting = false →
        ((w.pane c).field = "" ∨ l.accepted c = [] → w.act a = (.ok none, w)) ∧
        ((w.pane c).field ≠ "" → l.accepted c ≠ [] →
          w.act a = (.error .answeredRead, w.append c false (w.pane c).field))) := by
  have h := Balanced.after as
  have hi := Inscribed.after as
  have hjournal := journal_after as
  dsimp only
  rw [← hjournal]
  generalize after as = l at h hi ⊢
  refine ⟨hi c, h.window.balance c, length_pending_le _ _, h.runs c, fun a ha => ?_⟩
  rw [act_of_enters? ha, Pane.isWaiting]
  cases ht : (l.journal.window.pane c).ticket with
  | waiting =>
    refine ⟨fun _ => ?_, nofun⟩
    by_cases hf : (l.journal.window.pane c).field = ""
    · rw [if_pos hf, l.journal.window.enter_eq_self (.inr hf)]
      rfl
    · rw [if_neg hf, l.journal.window.enter_of_waiting ht hf]
      rfl
  | absent =>
    refine ⟨nofun, fun _ => ⟨fun _ => ?_, fun _ hne => absurd (h.window.absent c ht) hne⟩⟩
    rw [l.journal.window.enter_eq_self (.inl ht)]
    rfl
  | answered text =>
    refine ⟨nofun, fun _ => ⟨fun hor => ?_, fun hf _ => ?_⟩⟩
    · have hf := hor.resolve_right (h.window.answered c text ht)
      rw [l.journal.window.enter_eq_self (.inr hf)]
      rfl
    · rw [l.journal.window.enter_of_answered ht hf]
      rfl

/-- A program reads one number, a text is entered for it, and after the end of the run another text
is entered: its line stands in the transcript, but it was handed to no read. -/
theorem entered_delivered_after_end :
    ∃ as : List Action, ((Journal.after as).window.pane .console).isWaiting = false ∧
      (after as).entered .console = [("7", true)] ∧ (after as).handed .console = ["7"] ∧
      (Journal.after as).texts .console = ["7"] ∧
      (Journal.after as).window.act (.signal (.entered .console) 0) =
        (.error .answeredRead, (Journal.after as).window.append .console false "8") := by
  obtain ⟨as, hwaits, hfield, hentered, hhanded, haccepted⟩ : ∃ as : List Action,
      ((Journal.after as).window.pane .console).isWaiting = false ∧
      ((Journal.after as).window.pane .console).field = "8" ∧
      (after as).entered .console = [("7", true)] ∧ (after as).handed .console = ["7"] ∧
      (after as).accepted .console = ["7"] :=
    ⟨[.moved, .moved, .composed "+=?", .signal .resetRunToEnd 0, .moved, .moved, .moved,
      .typed .console "7", .signal (.entered .console) 0, .moved, .moved, .moved,
      .typed .console "8"], by decide +kernel⟩
  obtain ⟨-, -, -, hruns, henter⟩ := entered_delivered as .console
  have hact := ((henter (.signal (.entered .console) 0) rfl).2 hwaits).2
    (by rw [hfield]; decide) (by rw [haccepted]; decide)
  rw [hfield] at hact
  exact ⟨as, hwaits, hentered, hhanded, hruns.symm.trans hhanded, hact⟩

end Ledger

end TapeMachine
