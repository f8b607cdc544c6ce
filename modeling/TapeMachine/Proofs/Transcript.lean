import TapeMachine.Proofs.Trace
import TapeMachine.Window.Method

/-!
# Transcripts

What is written and what is entered on a channel is kept in the transcript of its pane, one
`Inscription` after another: the direction, the number of the run, the number of reads in the run,
and the text.  `inscriptions` gives the lines that the events of a run leave in a transcript, where
a write is labelled with the reads begun before it and a read counts itself.

To display what happened in a step changes the log and the transcripts and nothing else
(`Window.pane_display`).  A history is split at its first read (`Window.splitAtRead_append`).
-/

namespace TapeMachine

/-- A line of a transcript. -/
structure Inscription where
  /-- It was written by the program. -/
  isOutput : Bool
  /-- The number of the run. -/
  run : Nat
  /-- The number of reads in the run. -/
  read : Nat
  /-- What was written or entered. -/
  text : String
deriving DecidableEq, Repr

namespace Inscription

/-- The line as it stands in the transcript. -/
def render (i : Inscription) : String :=
  (if i.isOutput then "Out" else "In ") ++ "[" ++ String.ofList (Numeral.ofNat 10 i.run) ++ "." ++
    String.ofList (Numeral.ofNat 10 i.read) ++ "]: " ++ i.text

/-- Lines one after another; they are not divided. -/
def renderAll (is : List Inscription) : String := String.join (is.map render)

@[simp] theorem renderAll_nil : renderAll [] = "" := String.join_nil

@[simp] theorem renderAll_cons (i : Inscription) (is : List Inscription) :
    renderAll (i :: is) = i.render ++ renderAll is := String.join_cons

@[simp] theorem renderAll_append (is js : List Inscription) :
    renderAll (is ++ js) = renderAll is ++ renderAll js := by
  rw [renderAll, List.map_append, String.join_append]
  rfl

end Inscription

/-! ### The lines of a run -/

namespace Event

/-- The event is a read. -/
def isRead : Event → Bool
  | .read _ _ => true
  | .wrote _ _ => false

/-- The line that an event leaves in the pane of a channel, in a run with the given number and
after `k` reads. -/
def inscription? (run : Nat) (c : Channel) (k : Nat) : Event → Option Inscription
  | .wrote d text => if d = c then some ⟨true, run, k, text⟩ else none
  | .read d (.text text) => if d = c then some ⟨false, run, k + 1, text⟩ else none
  | .read _ _ => none

end Event

/-- The lines that events leave in the pane of a channel, in a run with the given number and after
`k` reads. -/
def inscriptions (run : Nat) (c : Channel) : Nat → List Event → List Inscription
  | _, [] => []
  | k, e :: es =>
    (e.inscription? run c k).toList ++
      inscriptions run c (if e.isRead then k + 1 else k) es

theorem inscriptions_append (run : Nat) (c : Channel) (k : Nat) (es fs : List Event) :
    inscriptions run c k (es ++ fs) =
      inscriptions run c k es ++ inscriptions run c (k + es.countP Event.isRead) fs := by
  induction es generalizing k with
  | nil => rfl
  | cons e es ih =>
    rw [List.cons_append, inscriptions, inscriptions, ih, List.append_assoc, List.countP_cons]
    cases e.isRead
    · rfl
    · rw [if_pos rfl, if_pos rfl, Nat.add_assoc, Nat.add_comm 1]

namespace Window

variable (w : Window) (c d : Channel)

/-- A line of the transcript as the counters stand. -/
def inscription (isOutput : Bool) (text : String) : Inscription :=
  ⟨isOutput, w.runCounter, w.ioCounter, text⟩

theorem transcriptLine_eq (isOutput : Bool) (text : String) :
    w.transcriptLine isOutput text = (w.inscription isOutput text).render := rfl

/-! ### What the widgets' operations leave alone -/

@[simp] theorem pane_log (n : Note) : (w.log n).pane c = w.pane c := by
  unfold log
  split <;> cases c <;> rfl

@[simp] theorem activity_log (n : Note) : (w.log n).activity = w.activity := by
  unfold log
  split <;> rfl

@[simp] theorem runCounter_log (n : Note) : (w.log n).runCounter = w.runCounter := by
  unfold log
  split <;> rfl

@[simp] theorem ioCounter_log (n : Note) : (w.log n).ioCounter = w.ioCounter := by
  unfold log
  split <;> rfl

@[simp] theorem activity_updatePane (f : Pane → Pane) :
    (w.updatePane c f).activity = w.activity := by
  cases c <;> rfl

@[simp] theorem runCounter_updatePane (f : Pane → Pane) :
    (w.updatePane c f).runCounter = w.runCounter := by
  cases c <;> rfl

@[simp] theorem ioCounter_updatePane (f : Pane → Pane) :
    (w.updatePane c f).ioCounter = w.ioCounter := by
  cases c <;> rfl

/-- The pane of a channel after that of a channel was changed. -/
theorem pane_updatePane (f : Pane → Pane) :
    (w.updatePane c f).pane d = if c = d then f (w.pane d) else w.pane d := by
  by_cases h : c = d
  · subst h
    rw [if_pos rfl, pane_updatePane_self]
  · rw [if_neg h, pane_updatePane_of_ne (Ne.symm h)]

end Window

/-! ### Showing what happened -/

/-- The line that an entry leaves in the pane of a channel when it is shown, as the counters
stand. -/
def Entry.output? (run read : Nat) (c : Channel) : Entry → Option Inscription
  | .event (.wrote d text) => if d = c then some ⟨true, run, read, text⟩ else none
  | .event (.read _ _) => none
  | .note _ => none

/-- The pane with lines added to its transcript. -/
def Pane.inscribe (p : Pane) (is : List Inscription) : Pane :=
  { p with transcript := p.transcript ++ Inscription.renderAll is }

namespace Pane

@[simp] theorem inscribe_nil (p : Pane) : p.inscribe [] = p := by
  simp [inscribe]

@[simp] theorem inscribe_inscribe (p : Pane) (is js : List Inscription) :
    (p.inscribe is).inscribe js = p.inscribe (is ++ js) := by
  simp [inscribe, String.append_assoc]

end Pane

namespace Window

variable (w : Window) (c d : Channel)

theorem pane_append (isOutput : Bool) (text : String) :
    (w.append c isOutput text).pane d =
      (w.pane d).inscribe (if c = d then [w.inscription isOutput text] else []) := by
  rw [append, pane_updatePane]
  split
  · simp [Pane.inscribe, transcriptLine_eq]
  · rw [Pane.inscribe_nil]

/-- What it takes to show one entry. -/
def displayOne : Entry → Window
  | .note n => w.log n
  | .event (.wrote c text) => w.append c true text
  | .event (.read _ _) => w

theorem display_cons (e : Entry) (es : List Entry) :
    w.display (e :: es) = (w.displayOne e).display es := by
  cases e with
  | note n => rfl
  | event x => cases x <;> rfl

/-- Showing an entry leaves what the window is doing and its counters as they were. -/
theorem displayOne_fixed (e : Entry) :
    (w.displayOne e).activity = w.activity ∧ (w.displayOne e).runCounter = w.runCounter ∧
      (w.displayOne e).ioCounter = w.ioCounter := by
  cases e with
  | note n => simp [displayOne]
  | event x => cases x <;> simp [displayOne, append]

theorem display_fixed (es : List Entry) :
    (w.display es).activity = w.activity ∧ (w.display es).runCounter = w.runCounter ∧
      (w.display es).ioCounter = w.ioCounter := by
  induction es generalizing w with
  | nil => exact ⟨rfl, rfl, rfl⟩
  | cons e es ih =>
    obtain ⟨ha, hr, hi⟩ := w.displayOne_fixed e
    obtain ⟨ha', hr', hi'⟩ := ih (w.displayOne e)
    rw [display_cons]
    exact ⟨ha'.trans ha, hr'.trans hr, hi'.trans hi⟩

/-- **Showing what happened** adds to the transcripts what was written, and changes nothing else of
the panes. -/
theorem pane_display (es : List Entry) :
    (w.display es).pane c =
      (w.pane c).inscribe (es.filterMap (Entry.output? w.runCounter w.ioCounter c)) := by
  induction es generalizing w with
  | nil => exact (Pane.inscribe_nil _).symm
  | cons e es ih =>
    obtain ⟨-, hr, hi⟩ := w.displayOne_fixed e
    rw [display_cons, ih, hr, hi]
    cases e with
    | note n => simp [displayOne, Entry.output?, List.filterMap_cons]
    | event x =>
      cases x with
      | read d reply => simp [displayOne, Entry.output?, List.filterMap_cons]
      | wrote d text =>
        rw [displayOne, pane_append, Pane.inscribe_inscribe]
        by_cases hd : d = c <;> simp [Entry.output?, hd, inscription]

/-- Without reads, what is shown of a history are the lines of its events. -/
theorem filterMap_output?_eq_inscriptions (run k : Nat) {es : List Entry}
    (h : ∀ e ∈ es, e.isRead = false) :
    es.filterMap (Entry.output? run k c) =
      inscriptions run c k (es.filterMap Entry.event?) := by
  induction es with
  | nil => rfl
  | cons e es ih =>
    have hes := ih fun x hx => h x (List.mem_cons_of_mem e hx)
    have he := h e List.mem_cons_self
    cases e with
    | note n => simpa [Entry.output?, Entry.event?, List.filterMap_cons] using hes
    | event x =>
      cases x with
      | read d reply => cases he
      | wrote d text =>
        by_cases hd : d = c <;>
          simp [Entry.output?, Entry.event?, hd, inscriptions, Event.inscription?, Event.isRead,
            hes]

/-! ### Splitting at a read -/

theorem splitAtRead_cons {e : Entry} (h : e.isRead = false) (es : List Entry) :
    splitAtRead (e :: es) = (e :: (splitAtRead es).1, (splitAtRead es).2) := by
  cases e with
  | note n => rfl
  | event x =>
    cases x with
    | read d reply => cases h
    | wrote d text => rfl

theorem splitAtRead_of_not_isRead {es : List Entry} (h : ∀ e ∈ es, e.isRead = false) :
    splitAtRead es = (es, none) := by
  induction es with
  | nil => rfl
  | cons e es ih =>
    rw [splitAtRead_cons (h e List.mem_cons_self), ih fun x hx => h x (List.mem_cons_of_mem e hx)]

theorem splitAtRead_append {before : List Entry} (h : ∀ e ∈ before, e.isRead = false)
    (reply : Reply) (after : List Entry) :
    splitAtRead (before ++ .event (.read c reply) :: after) = (before, some (c, after)) := by
  induction before with
  | nil => rfl
  | cons e es ih =>
    rw [List.cons_append, splitAtRead_cons (h e List.mem_cons_self),
      ih fun x hx => h x (List.mem_cons_of_mem e hx)]

end Window

end TapeMachine
