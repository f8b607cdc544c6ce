import TapeMachine.Proofs.Action
import TapeMachine.Proofs.Attendance

/-!
# The event loop of a window

A run that is over and the window that is told of it are two matters: the run leaves its machine,
and the loop completes the run later.  In between other things can be done at the window, and the
run still counts as one that is in progress.

A `Journal` follows a window and its loop.  It keeps the runs that were started, each with its
program and the texts that were handed to its reads, and the machines that were published.  What is
done at the window never moves a run on, and it starts one only where none is in progress
(`Window.attends_act`); to start one where there is one leaves a message and nothing else
(`Window.handle_run_of_busy`).
-/

namespace TapeMachine

open Exec

/-! ### Texts that are handed over one by one -/

namespace Script

/-- The texts with one more behind the others on a channel. -/
def add (t : Script) : Channel → String → Script
  | .console, text => { t with console := t.console ++ [text] }
  | .modem, text => { t with modem := t.modem ++ [text] }

/-- The texts with one more before the others on a channel. -/
def push (t : Script) : Channel → String → Script
  | .console, text => { t with console := text :: t.console }
  | .modem, text => { t with modem := text :: t.modem }

/-- The texts followed by others. -/
def append (t u : Script) : Script := ⟨t.console ++ u.console, t.modem ++ u.modem⟩

variable (t u : Script) (c d : Channel) (text : String)

theorem next?_push : (t.push c text).next? c = some (text, t) := by
  cases c <;> rfl

theorem ask?_lines_push :
    ((t.push c text).lines.get c).ask? = some (.text text, line (t.get c)) := by
  cases c <;> rfl

theorem append_add : (t.add c text).append u = t.append (u.push c text) := by
  cases c <;> simp [append, add, push]

theorem append_empty : t.append {} = t := by
  simp [append]

theorem length_get_add :
    ((t.add c text).get d).length = (t.get d).length + c.once d := by
  cases c <;> cases d <;> simp [add, get, Channel.once]

end Script

/-! ### The steps of the loop -/

theorem Activity.isBusy_eq_false_iff {a : Activity} : a.isBusy = false ↔ a = .idle := by
  cases a <;> simp [isBusy]

namespace Window

variable {w u : Window} {m : Machine} {c : Channel}

theorem latest_log (w : Window) (n : Note) : (w.log n).latest = w.latest := by
  unfold log
  split <;> rfl

theorem latest_display (w : Window) (es : List Entry) : (w.display es).latest = w.latest := by
  induction es generalizing w with
  | nil => rfl
  | cons e es ih =>
    rw [display_cons, ih]
    cases e with
    | note n => exact w.latest_log n
    | event x =>
      cases x with
      | read d reply => rfl
      | wrote d text => cases d <;> rfl

theorem latest_suspend (w : Window) (m : Machine) (c : Channel) :
    (w.suspend m c).latest = w.latest := by
  cases c <;> rfl

theorem latest_yield (w : Window) (result : Except Fault Unit) (m : Machine) :
    (w.yield result m).1.latest = w.latest := by
  cases result with
  | ok _ => rfl
  | error f => exact w.latest_log _

/-- The text that is about to be handed to a read of the run, and the channel of the read. -/
def handover? (w : Window) : Option (Channel × String) :=
  match w.activity with
  | .suspended _ c => (w.pane c).ticket.given.head?.map (c, ·)
  | _ => none

theorem handover?_of_running (ha : w.activity = .running m) : w.handover? = none := by
  rw [handover?, ha]

theorem handover?_of_answered {text : String} (ha : w.activity = .suspended m c)
    (ht : (w.pane c).ticket = .answered text) : w.handover? = some (c, text) := by
  simp only [handover?, ha, ht]
  rfl

/-- The end of the program. -/
theorem progress?_of_isFinished (ha : w.activity = .running m) (hf : m.isFinished = true) :
    w.progress? = some (w.counted, some m) := by
  rw [progress?, ha]
  simp only [proceed, hf, ↓reduceIte]

/-- A step that does not read. -/
theorem progress?_of_inquiry?_eq_none (ha : w.activity = .running m) (hf : m.isFinished = false)
    (hq : m.inquiry? = none) :
    w.progress? = some ((w.display (world m "").entries.reverse).yield (world m "").step.1
      (world m "").step.2.machine) := by
  rw [progress?, ha]
  exact congrArg some (w.proceed_of_inquiry?_eq_none hf hq)

/-- A run that is over and not completed still counts as running, on the machine that it leaves. -/
theorem activity_of_progress? (h : w.progress? = some (u, some m)) : u.activity = .running m := by
  have hyield : ∀ {v : Window} {result : Except Fault Unit} {m' : Machine},
      (u, some m) = v.yield result m' → u.activity = .running m := by
    intro v result m' heq
    cases result with
    | ok _ => cases heq
    | error f =>
      cases heq
      rfl
  obtain ⟨m', ha, -, heq⟩ | ⟨m', es, -, -, -, heq⟩ | ⟨m', c, es, -, -, heq⟩ |
    ⟨m', c, text, es, -, -, heq⟩ := progress?_cases h
  · cases heq
    exact ha
  · exact hyield heq
  · cases heq
  · exact hyield heq

/-! ### What is done at the window -/

/-- The program that the window starts. -/
def program (w : Window) : String := String.ofList (Text.trim Text.isBlank w.programText.toList)

/-- What is done at the window and not by the loop leaves the machine that is shown and the count of
reads as they were; it moves no run on, and it starts one only where none is in progress. -/
structure Attends (w u : Window) : Prop where
  latest_eq : u.latest = w.latest
  ioCounter_eq : u.ioCounter = w.ioCounter
  activity : u.activity = w.activity ∨
    w.activity = .idle ∧ u.activity = .running (Machine.load w.program.toList)

theorem attends_of_eq (hs : u.latest = w.latest) (hi : u.ioCounter = w.ioCounter)
    (ha : u.activity = w.activity) : Attends w u :=
  ⟨hs, hi, .inl ha⟩

theorem attends_updatePane (w : Window) (c : Channel) (f : Pane → Pane) :
    Attends w (w.updatePane c f) := by
  cases c <;> exact attends_of_eq rfl rfl rfl

theorem attends_enter (w : Window) (c : Channel) : Attends w (w.enter c).2 := by
  refine attends_of_eq ?_ (w.enter_fixed c).2 (w.enter_fixed c).1
  unfold enter append
  split <;> cases c <;> rfl

theorem attends_evaluate (w : Window) : Attends w w.evaluate := by
  unfold evaluate
  split
  · exact attends_of_eq rfl rfl rfl
  · rename_i hbusy
    have hidle := Activity.isBusy_eq_false_iff.1 (Bool.eq_false_iff.2 hbusy)
    refine ⟨latest_log _ _, ioCounter_log _ _, .inr ⟨hidle, ?_⟩⟩
    rw [activity_log, program, String.toList_ofList]

theorem attends_run (w : Window) : Attends w w.run := by
  obtain ⟨hs, hi, ha⟩ := w.setClean.attends_evaluate
  exact ⟨hs, hi, ha⟩

theorem attends_handle (w : Window) (i : Int) (s : Handler) : Attends w (w.handle i s).2 := by
  cases s with
  | frameChosen =>
    obtain ⟨status, cells, buffer, signals, hv⟩ := w.exists_viewFrame_eq i
    rw [handle, snd_attempted, hv]
    exact attends_of_eq rfl rfl rfl
  | entered c =>
    rw [handle, snd_attempted]
    exact w.attends_enter c
  | returnPressed =>
    rw [handle, snd_attempted]
    exact w.attends_enter .console
  | resetRunToEnd => exact w.attends_run
  | fieldReset c => exact w.attends_updatePane c fun p => { p with field := "" }
  | edited c => exact w.attends_updatePane c fun p => { p with preview := p.input?.getD "" }
  | _ => exact attends_of_eq rfl rfl rfl

/-- **An action that is not a move** attends to the window. -/
theorem attends_act (w : Window) {a : Action} (ha : a ≠ .moved) : Attends w (w.act a).2 := by
  cases a with
  | signal s i => exact w.attends_handle i s
  | typed c text =>
    rw [act, setText_input]
    exact w.attends_updatePane c fun p => { p with field := text }
  | composed text => exact attends_of_eq rfl rfl rfl
  | moved => exact absurd rfl ha

/-- **To start the program while a run is in progress** leaves a message and the text as one that was
run, and changes nothing else. -/
theorem handle_run_of_busy (h : w.activity.isBusy = true) (i : Int) :
    w.handle i .resetRunToEnd = (.ok none, { w with
      dirty := false, signals := .styled "" :: w.signals, printed := w.printed ++ "FIXME\n" }) := by
  have hclean : w.setClean.activity.isBusy = true := h
  rw [handle, run, evaluate, if_pos hclean]
  rfl

end Window

/-! ### The journal -/

/-- A run: its program and the texts that were handed to its reads. -/
structure Job where
  program : String
  texts : Script := {}
deriving DecidableEq, Repr

/-- The run after a text was handed to one of its reads. -/
def Job.hand (r : Job) (c : Channel) (text : String) : Job :=
  { r with texts := r.texts.add c text }

/-- A window with its loop, and with what became of its runs. -/
structure Journal where
  window : Window
  /-- What a run has left that is over and not completed. -/
  due : Option Machine := none
  /-- The runs that were started, the latest first. -/
  started : List Job
  /-- The machines that the window was told of, the latest first. -/
  published : List Machine := []

namespace Journal

/-- The text that is about to be handed to a read goes to the latest run. -/
def handOver (started : List Job) : Option (Channel × String) → List Job
  | none => started
  | some (c, text) => started.modifyHead fun r => r.hand c text

/-- One step of the loop: the completion of a run that is over comes before all else. -/
def tick (j : Journal) : Journal :=
  match j.due with
  | some m =>
    { j with window := j.window.complete m, due := none, published := m :: j.published }
  | none =>
    match j.window.progress? with
    | none => j
    | some (u, ended) =>
      { j with window := u, due := ended, started := handOver j.started j.window.handover? }

theorem tick_of_progress? {j : Journal} {u : Window} {ended : Option Machine} (hd : j.due = none)
    (hp : j.window.progress? = some (u, ended)) : j.tick = { j with
      window := u, due := ended, started := handOver j.started j.window.handover? } := by
  rw [tick, hd, hp]

/-- Something other is done at the window. -/
def attend (j : Journal) (a : Action) : Journal :=
  let u := (j.window.act a).2
  { j with
    window := u
    started := if !j.window.activity.isBusy && u.activity.isBusy then
      ⟨j.window.program, {}⟩ :: j.started else j.started }

/-- The journal after an action; a move is one step of the loop. -/
def act (j : Journal) (a : Action) : Journal := if a = .moved then j.tick else j.attend a

/-- **What an action can do to the journal**: the loop completes a run that is over, or has nothing
to do, or makes a step of the run; or something other is done at the window. -/
theorem act_cases (j : Journal) (a : Action) :
    (∃ m, j.due = some m ∧ j.act a =
      { j with window := j.window.complete m, due := none, published := m :: j.published }) ∨
    j.act a = j ∨
    (∃ u ended, j.window.progress? = some (u, ended) ∧ j.act a =
      { j with window := u, due := ended, started := handOver j.started j.window.handover? }) ∨
    a ≠ .moved ∧ j.act a = j.attend a := by
  by_cases ha : a = .moved
  · rw [act, if_pos ha]
    cases hd : j.due with
    | some m =>
      refine .inl ⟨m, rfl, ?_⟩
      rw [tick, hd]
    | none =>
      cases hp : j.window.progress? with
      | none =>
        refine .inr (.inl ?_)
        rw [tick, hd, hp]
      | some p =>
        obtain ⟨u, ended⟩ := p
        exact .inr (.inr (.inl ⟨u, ended, rfl, tick_of_progress? hd hp⟩))
  · exact .inr (.inr (.inr ⟨ha, if_neg ha⟩))

/-- The journal of a new window, which has started its program. -/
def new : Journal := { window := Window.opened, started := [⟨Window.opened.program, {}⟩] }

/-- The journal of a window at which actions were carried out. -/
def after (as : List Action) : Journal := as.foldl act new

theorem after_append (as bs : List Action) : after (as ++ bs) = bs.foldl act (after as) :=
  List.foldl_append

end Journal

end TapeMachine
