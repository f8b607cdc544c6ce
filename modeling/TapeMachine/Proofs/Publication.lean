import TapeMachine.Proofs.EventLoop

/-!
# One run at a time

Whatever is done at a window, in whatever order with the steps of its loop, at most one run is in
progress.  Every run that stops is published once, and runs are published in the order in which they
were started (`Journal.runs_one_by_one`).

A run in a window is compared with the interpreter that has on its lines the texts that were handed
to the run's reads.  As long as the run is in progress, the interpreter reaches the same machine
whatever texts follow (`Job.Reaches`); when the run is over, the interpreter has stopped with the
same machine (`Job.Leaves`).  A step of the loop leads from one to the other
(`Journal.Kept.tick`).
-/

namespace TapeMachine

open Exec Relation

theorem World.reads_step (w : World) (ch : Channel) :
    w.step.2.reads ch = w.newReads ch + w.reads ch := by
  rw [reads, trace_step, List.countP_append]
  rfl

theorem World.reads_le_run (w : World) (n : Nat) (ch : Channel) :
    w.reads ch ≤ (w.run n).world.reads ch := by
  obtain ⟨k, hk, -⟩ := w.run_frugal n
  rw [hk]
  exact Nat.le_add_right _ _

theorem World.exists_eq_succ_of_run {w : World} {k : Nat} (hf : w.machine.isFinished = false)
    (hstop : ∀ v, w.run k ≠ .unfinished v) : ∃ i, k = i + 1 := by
  cases k with
  | zero =>
    refine absurd ?_ (hstop w)
    rw [run, hf]
    rfl
  | succ i => exact ⟨i, rfl⟩

/-! ### Runs and the interpreter -/

namespace Job

variable {r : Job} {m m' : Machine} {c : Channel} {text : String} {result : Except Fault Unit}

/-- The world in which the run begins when it has its texts on the lines, and others behind them. -/
def start (r : Job) (rest : Script) : World := World.load (r.texts.append rest).lines r.program

/-- When it has read its texts, the run comes to the machine, whatever the texts behind them are. -/
def Reaches (r : Job) (m : Machine) : Prop :=
  ∀ rest : Script, ∃ b : World, ReflTransGen World.Next (r.start rest) b ∧ b.machine = m ∧
    b.lines = rest.lines ∧ ∀ c, b.reads c = (r.texts.get c).length

/-- The run stops and leaves the machine: the interpreter that has its texts on the lines reads them
all and no more, and leaves the machine. -/
def Leaves (r : Job) (m : Machine) : Prop :=
  ∃ k report after,
    Interpreter.run k { lines := r.texts.lines } r.program = some (report, after) ∧
      report.machine = m ∧ ∀ c, report.reads c = (r.texts.get c).length

theorem leaves_iff : r.Leaves m ↔ ∃ k, (∀ v, (r.start {}).run k ≠ .unfinished v) ∧
    ((r.start {}).run k).world.machine = m ∧
      ∀ c, ((r.start {}).run k).world.reads c = (r.texts.get c).length := by
  rw [start, Script.append_empty]
  constructor
  · rintro ⟨k, report, after, h, hm, hreads⟩
    have hrun := Interpreter.reads_of_run h
    refine ⟨k, ?_, ?_, fun c => ?_⟩
    · intro v hv
      rw [Interpreter.run, hv] at h
      cases h
    · rw [← hm]
      unfold Interpreter.run at h
      dsimp only at h
      split at h <;> cases h <;> rename_i hv <;> rw [hv] <;> rfl
    · rw [← hreads c, hrun]
  · rintro ⟨k, hstop, hm, hreads⟩
    have hsome : ∃ report after, Interpreter.run k { lines := r.texts.lines } r.program =
        some (report, after) ∧ report.machine = m := by
      unfold Interpreter.run
      dsimp only
      cases hv : (World.load r.texts.lines r.program).run k with
      | finished v =>
        rw [hv] at hm
        exact ⟨_, _, rfl, hm⟩
      | stopped f v =>
        rw [hv] at hm
        exact ⟨_, _, rfl, hm⟩
      | unfinished v => exact absurd hv (hstop v)
    obtain ⟨report, after, h, hmachine⟩ := hsome
    refine ⟨k, report, after, h, hmachine, fun c => ?_⟩
    rw [Interpreter.reads_of_run h]
    exact hreads c

theorem leaves_unique (h : r.Leaves m) (h' : r.Leaves m') : m = m' := by
  obtain ⟨k, hstop, rfl, -⟩ := leaves_iff.1 h
  obtain ⟨k', hstop', rfl, -⟩ := leaves_iff.1 h'
  rw [World.run_unique hstop hstop']

/-- From where the run has come it goes on to its end. -/
theorem leaves_of_run {b : World} {n : Nat} (hr : ReflTransGen World.Next (r.start {}) b)
    (hstop : ∀ v, b.run n ≠ .unfinished v) (hm : (b.run n).world.machine = m)
    (hreads : ∀ c, (b.run n).world.reads c = (r.texts.get c).length) : r.Leaves m := by
  obtain ⟨k, hk⟩ := World.exists_run_add hr
  refine leaves_iff.2 ⟨k + n, ?_⟩
  rw [hk]
  exact ⟨hstop, hm, hreads⟩

theorem reaches_start (program : String) :
    Reaches ⟨program, {}⟩ (Machine.load program.toList) := by
  intro rest
  refine ⟨_, .refl, rfl, rfl, fun c => ?_⟩
  cases c <;> rfl

/-- The run makes a step with the result and comes to the machine. -/
def Steps (r : Job) (result : Except Fault Unit) (m : Machine) : Prop :=
  ∀ rest : Script, ∃ b b' : World, ReflTransGen World.Next (r.start rest) b ∧
    b.machine.isFinished = false ∧ b.step = (result, b') ∧ b'.machine = m ∧
      b'.lines = rest.lines ∧ ∀ c, b'.reads c = (r.texts.get c).length

/-- How a run stands whose machine is `m`: it goes on, or it is over and has left the machine. -/
def Stands (r : Job) (due : Option Machine) (m : Machine) : Prop :=
  due = none ∧ r.Reaches m ∨ due = some m ∧ r.Leaves m

/-- The end of the program is the end of the run. -/
theorem Reaches.leaves (h : r.Reaches m) (hf : m.isFinished = true) : r.Leaves m := by
  obtain ⟨b, hr, rfl, -, hreads⟩ := h {}
  have hrun : b.run 0 = .finished b := World.run_of_isFinished hf 0
  refine leaves_of_run (n := 0) hr ?_ ?_ ?_
  · intro v hv
    cases hrun.symm.trans hv
  · rw [hrun]
    rfl
  · rw [hrun]
    exact hreads

theorem Reaches.steps_of_inquiry?_eq_none (h : r.Reaches m) (hf : m.isFinished = false)
    (hq : m.inquiry? = none) :
    r.Steps (Window.world m "").step.1 (Window.world m "").step.2.machine := by
  intro rest
  obtain ⟨b, hr, rfl, hl, hreads⟩ := h rest
  have hstep := Window.step_of_inquiry?_eq_none hl hq
  refine ⟨b, _, hr, hf, hstep, rfl, rfl, fun c => ?_⟩
  have hnew : b.newReads c = 0 := congrFun (World.newReads_of_inquiry?_eq_none hq) c
  have hread := b.reads_step c
  rw [hnew, Nat.zero_add, hreads c, hstep] at hread
  exact hread

theorem Reaches.steps_of_inquiry? (h : r.Reaches m) (hq : m.inquiry? = some c) (text : String) :
    (r.hand c text).Steps (Window.world m text).step.1 (Window.world m text).step.2.machine := by
  intro rest
  -- The text comes before those that follow it.
  obtain ⟨b, hr, rfl, hl, hreads⟩ := h (rest.push c text)
  have hstep := Window.step_of_inquiry? hl hq (rest.next?_push c text)
  have hstart : (r.hand c text).start rest = r.start (rest.push c text) := by
    rw [start, hand, Script.append_add, start]
  refine ⟨b, _, hstart ▸ hr, Machine.isFinished_of_inquiry? hq, hstep, rfl, rfl, fun d => ?_⟩
  have hask : (b.lines.get c).ask? = some (.text text, Script.line (rest.get c)) := by
    rw [hl]
    exact rest.ask?_lines_push c text
  have hnew : b.newReads d = c.once d := congrFun (World.newReads_of_inquiry? hq hask) d
  have hread := b.reads_step d
  rw [hnew, hreads d, hstep, Nat.add_comm, ← Script.length_get_add] at hread
  exact hread

/-- After its step the run goes on, or it is over. -/
theorem Steps.stands (h : r.Steps result m) (w : Window) : r.Stands (w.yield result m).2 m := by
  cases result with
  | ok _ =>
    refine .inl ⟨rfl, fun rest => ?_⟩
    obtain ⟨b, b', hr, -, hstep, hm, hl, hreads⟩ := h rest
    exact ⟨b', hr.tail ((on_advance b).trans hstep), hm, hl, hreads⟩
  | error f =>
    obtain ⟨b, b', hr, hf, hstep, hm, -, hreads⟩ := h {}
    have hrun : b.run 1 = .stopped f b' := by
      simp only [World.run, hf, on_advance, hstep]
      rfl
    refine .inr ⟨rfl, leaves_of_run (n := 1) hr ?_ ?_ ?_⟩
    · intro v hv
      cases hrun.symm.trans hv
    · rw [hrun]
      exact hm
    · rw [hrun]
      exact hreads

end Job

/-- The machine of the run that is in progress. -/
def Activity.machine? : Activity → Option Machine
  | .idle => none
  | .running m => some m
  | .suspended m _ => some m

theorem Activity.exists_machine? {a : Activity} (h : a.isBusy = true) :
    ∃ m, a.machine? = some m := by
  cases a with
  | idle => cases h
  | running m | suspended m c => exact ⟨m, rfl⟩

namespace Journal

open Window

variable {j : Journal} {m : Machine} {r : Job} {rs : List Job}

/-- The runs that were started and the machines that were published go together: where no run is in
progress, each run has left its machine; where one is, this holds of the others. -/
structure Kept (j : Journal) : Prop where
  orderly : j.window.Orderly
  rested : j.window.Rested
  latest : j.window.latest = j.published.head?
  ended : ∀ m, j.due = some m → j.window.activity = .running m
  idle : j.window.activity = .idle → List.Forall₂ Job.Leaves j.started j.published
  busy : ∀ m, j.window.activity.machine? = some m → ∃ r rs, j.started = r :: rs ∧
    List.Forall₂ Job.Leaves rs j.published ∧ r.Stands j.due m

theorem kept_of_busy (ho : j.window.Orderly) (hs : j.window.latest = j.published.head?)
    (hover : ∀ m, j.due = some m → j.window.activity = .running m)
    (ha : j.window.activity.machine? = some m) (hj : j.started = r :: rs)
    (hrs : List.Forall₂ Job.Leaves rs j.published) (hr : r.Stands j.due m) : j.Kept := by
  have hne : j.window.activity ≠ .idle := by
    intro hidle
    rw [hidle] at ha
    cases ha
  refine ⟨ho, fun hidle => absurd hidle hne, hs, hover, fun hidle => absurd hidle hne, ?_⟩
  intro m' hm'
  cases ha.symm.trans hm'
  exact ⟨r, rs, hj, hrs, hr⟩

namespace Kept

theorem new : Kept new := by
  have hrun : opened.activity = .running (Machine.load opened.program.toList) := by rfl
  have hmachine : opened.activity.machine? = some (Machine.load opened.program.toList) := by
    rw [hrun]
    rfl
  refine kept_of_busy orderly_opened rfl (fun m hm => ?_) hmachine rfl .nil ?_
  · cases hm
  · exact .inl ⟨rfl, Job.reaches_start opened.program⟩

/-- The window shows the machine that was published last. -/
theorem shown (h : j.Kept) (hm : m ∈ j.published.head?) : j.window.shown = m := by
  rw [Window.shown, h.latest, Option.mem_def.1 hm]
  rfl

theorem due_eq_none (h : j.Kept) (hidle : j.window.activity = .idle) : j.due = none := by
  cases hd : j.due with
  | none => rfl
  | some m => cases hidle.symm.trans (h.ended m hd)

/-- What is done at the window keeps the runs as they stand, or starts one where there is none. -/
theorem attend (h : j.Kept) {a : Action} (ha : a ≠ .moved) : (j.attend a).Kept := by
  obtain ⟨hlatest, hio, hact⟩ := j.window.attends_act ha
  have horderly := orderly_act h.orderly ha
  have hlatest' : (j.attend a).window.latest = (j.attend a).published.head? :=
    hlatest.trans h.latest
  obtain hsame | ⟨hidle, hrun⟩ := hact
  · have hstarted : (j.attend a).started = j.started := by
      rw [Journal.attend, hsame]
      cases j.window.activity.isBusy <;> rfl
    refine ⟨horderly, h.rested.congr hsame hio, hlatest', ?_, ?_, ?_⟩
    · exact fun m hm => hsame.trans (h.ended m hm)
    · intro hidle
      rw [hstarted]
      exact h.idle (hsame.symm.trans hidle)
    · intro m hm
      rw [hstarted]
      exact h.busy m ((congrArg Activity.machine? hsame).symm.trans hm)
  · have hdue := h.due_eq_none hidle
    have hstarted : (j.attend a).started = ⟨j.window.program, {}⟩ :: j.started := by
      rw [Journal.attend, hidle, hrun]
      rfl
    refine kept_of_busy horderly hlatest' ?_ (congrArg Activity.machine? hrun) hstarted
      (h.idle hidle) (.inl ⟨hdue, Job.reaches_start j.window.program⟩)
    intro m hm
    cases hdue.symm.trans hm

/-- The run that is over is published. -/
theorem tick_of_due (h : j.Kept) (hd : j.due = some m) : j.tick.Kept := by
  have hrun := h.ended m hd
  obtain ⟨r, rs, hj, hrs, hr⟩ := h.busy m (by rw [hrun]; rfl)
  have hleaves : r.Leaves m := by
    obtain ⟨hnone, -⟩ | ⟨-, hleaves⟩ := hr
    · cases hnone.symm.trans hd
    · exact hleaves
  rw [tick, hd]
  refine ⟨?_, fun _ => rfl, rfl, fun m' hm' => ?_, fun _ => ?_, fun m' hm' => ?_⟩
  · refine (orderly_of_not_suspended (fun m' c hm' => ?_) fun c hc => ?_).1
    · cases hm'
    · rw [pane_complete] at hc
      obtain ⟨m', hm'⟩ := h.orderly.suspended c hc
      cases hrun.symm.trans hm'
  · cases hm'
  · rw [hj]
    exact .cons hleaves hrs
  · cases hm'

/-- **A step of the loop** moves the run on that is in progress. -/
theorem tick (h : j.Kept) : j.tick.Kept := by
  cases hd : j.due with
  | some m => exact h.tick_of_due hd
  | none =>
    cases hp : j.window.progress? with
    | none =>
      rw [Journal.tick, hd, hp]
      exact h
    | some p =>
      obtain ⟨u, ended⟩ := p
      have horderly := (orderly_of_progress? h.orderly hp).1
      have hover : ∀ m, ended = some m → u.activity = .running m := by
        rintro m rfl
        exact activity_of_progress? hp
      -- The run that is in progress goes on and has not left anything yet.
      have hreaches : ∀ m, j.window.activity.machine? = some m → ∃ r rs, j.started = r :: rs ∧
          List.Forall₂ Job.Leaves rs j.published ∧ r.Reaches m := by
        intro m hm
        obtain ⟨r, rs, hj, hrs, hr⟩ := h.busy m hm
        rw [hd] at hr
        obtain ⟨-, hr⟩ | ⟨hsome, -⟩ := hr
        · exact ⟨r, rs, hj, hrs, hr⟩
        · cases hsome
      rw [tick_of_progress? hd hp]
      obtain ⟨m, ha, hf, heq⟩ | ⟨m, es, ha, hf, hq, heq⟩ | ⟨m, c, es, ha, hq, heq⟩ |
        ⟨m, c, text, es, ha, ht, heq⟩ := progress?_cases hp
      · obtain ⟨r, rs, hj, hrs, hr⟩ := hreaches m (by rw [ha]; rfl)
        obtain ⟨rfl, rfl⟩ := Prod.ext_iff.1 heq
        refine kept_of_busy horderly h.latest hover (congrArg Activity.machine? ha) ?_ hrs
          (.inr ⟨rfl, hr.leaves hf⟩)
        rw [handover?_of_running ha]
        exact hj
      · obtain ⟨r, rs, hj, hrs, hr⟩ := hreaches m (by rw [ha]; rfl)
        obtain ⟨rfl, rfl⟩ := Prod.ext_iff.1 heq
        refine kept_of_busy horderly ?_ hover (congrArg Activity.machine? (activity_yield _ _ _)) ?_
          hrs ((hr.steps_of_inquiry?_eq_none hf hq).stands _)
        · rw [latest_yield, latest_display]
          exact h.latest
        · rw [handover?_of_running ha]
          exact hj
      · obtain ⟨r, rs, hj, hrs, hr⟩ := hreaches m (by rw [ha]; rfl)
        obtain ⟨rfl, rfl⟩ := Prod.ext_iff.1 heq
        refine kept_of_busy horderly ?_ hover (congrArg Activity.machine? (activity_suspend _ m c)) ?_
          hrs (.inl ⟨rfl, hr⟩)
        · rw [latest_suspend, latest_display]
          exact h.latest
        · rw [handover?_of_running ha]
          exact hj
      · obtain ⟨r, rs, hj, hrs, hr⟩ := hreaches m (by rw [ha]; rfl)
        obtain ⟨rfl, rfl⟩ := Prod.ext_iff.1 heq
        refine kept_of_busy horderly ?_ hover (congrArg Activity.machine? (activity_yield _ _ _)) ?_
          hrs ((hr.steps_of_inquiry? (h.orderly.inquiry m c ha) text).stands _)
        · rw [latest_yield, latest_display]
          exact h.latest
        · rw [handover?_of_answered ha ht, hj]
          rfl

theorem act (h : j.Kept) (a : Action) : (j.act a).Kept := by
  unfold Journal.act
  split
  · exact h.tick
  · rename_i ha
    exact h.attend ha

theorem after (as : List Action) : (after as).Kept := by
  have hrun : ∀ j : Journal, j.Kept → (as.foldl Journal.act j).Kept := by
    induction as with
    | nil => exact fun j h => h
    | cons a as ih => exact fun j h => ih (j.act a) (h.act a)
  exact hrun Journal.new new

end Kept

/-! ### The way to the publication -/

/-- A run that stops makes no step that reads where it has no more reads to make. -/
theorem inquiry?_eq_none_of_run {b : World} {k : Nat} (hl : b.lines = ({} : Script).lines)
    (hstop : ∀ v, b.run k ≠ .unfinished v)
    (hreads : ∀ c, (b.run k).world.reads c = b.reads c) : b.machine.inquiry? = none := by
  cases hq : b.machine.inquiry? with
  | none => rfl
  | some c =>
    exfalso
    have hf := Machine.isFinished_of_inquiry? hq
    have hask : (b.lines.get c).ask? = some (.text "", Script.line []) := by
      rw [hl]
      cases c <;> rfl
    have hread := b.reads_step c
    rw [World.newReads_of_inquiry? hq hask, Channel.once, if_pos rfl] at hread
    obtain ⟨k, rfl⟩ := World.exists_eq_succ_of_run hf hstop
    have hle : b.step.2.reads c ≤ (b.run (k + 1)).world.reads c := by
      simp only [World.run, hf, on_advance, Bool.false_eq_true, ↓reduceIte]
      rcases b.step with ⟨f | _, b'⟩
      · exact Nat.le_refl _
      · exact b'.reads_le_run k c
    have hsame := hreads c
    omega

/-- At most `n` steps of the loop are missing until the machine is published: the run is over, or it
has no more reads to make and stops. -/
def Within (n : Nat) (j : Journal) (m : Machine) : Prop :=
  (1 ≤ n ∧ j.due = some m ∧ j.window.activity = .running m) ∨
  ∃ (k : Nat) (b : World), k + 2 ≤ n ∧ j.due = none ∧ j.window.activity = .running b.machine ∧
    b.lines = ({} : Script).lines ∧ (∀ v, b.run k ≠ .unfinished v) ∧
      (b.run k).world.machine = m ∧ ∀ c, (b.run k).world.reads c = b.reads c

/-- The journal after the machine was published, with the window told of it. -/
structure Publishes (j : Journal) (m : Machine) (u : Journal) : Prop where
  published_eq : u.published = m :: j.published
  started_eq : u.started = j.started
  shown_eq : u.window.shown = m
  activity_eq : u.window.activity = .idle
  due_eq : u.due = none
  ioCounter_eq : u.window.ioCounter = 0

theorem publishes_tick (h : j.due = some m) : j.Publishes m j.tick := by
  rw [tick, h]
  exact ⟨rfl, rfl, rfl, rfl, rfl, rfl⟩

/-- The journals tell of the same runs. -/
def SameRuns (j u : Journal) : Prop := u.published = j.published ∧ u.started = j.started

theorem SameRuns.publishes {u v : Journal} (h : j.SameRuns u) (hu : u.Publishes m v) :
    j.Publishes m v :=
  { hu with
    published_eq := hu.published_eq.trans (congrArg _ h.1)
    started_eq := hu.started_eq.trans h.2 }

/-- While a run is in progress, what is done at the window starts none. -/
theorem sameRuns_attend {a : Action} (ha : a ≠ .moved) (hb : j.window.activity ≠ .idle) :
    j.SameRuns (j.attend a) ∧ (j.attend a).window.activity = j.window.activity := by
  obtain hsame | ⟨hidle, -⟩ := (j.window.attends_act ha).activity
  · refine ⟨⟨rfl, ?_⟩, hsame⟩
    rw [attend, hsame]
    cases j.window.activity.isBusy <;> rfl
  · exact absurd hidle hb

namespace Within

variable {n : Nat}

theorem attend (h : Within n j m) {a : Action} (ha : a ≠ .moved) :
    Within n (j.attend a) m ∧ j.SameRuns (j.attend a) := by
  have hbusy : j.window.activity ≠ .idle := by
    intro hidle
    obtain ⟨-, -, hrun⟩ | ⟨k, b, -, -, hrun, -⟩ := h
    · cases hidle.symm.trans hrun
    · cases hidle.symm.trans hrun
  obtain ⟨hruns, hsame⟩ := sameRuns_attend ha hbusy
  refine ⟨?_, hruns⟩
  obtain ⟨hn, hd, hrun⟩ | ⟨k, b, hn, hd, hrun, hrest⟩ := h
  · exact .inl ⟨hn, hd, hsame.trans hrun⟩
  · exact .inr ⟨k, b, hn, hd, hsame.trans hrun, hrest⟩

/-- **A step of the loop** publishes the machine, or one step less is missing. -/
theorem tick (h : Within (n + 1) j m) :
    j.Publishes m j.tick ∨ Within n j.tick m ∧ j.SameRuns j.tick := by
  obtain ⟨-, hd, -⟩ | ⟨k, b, hn, hd, hrun, hl, hstop, rfl, hreads⟩ := h
  · exact .inl (publishes_tick hd)
  · refine .inr ?_
    have htick : ∀ {u : Window} {ended : Option Machine}, j.window.progress? = some (u, ended) →
        j.tick = { j with window := u, due := ended } := by
      intro u ended hp
      rw [tick_of_progress? hd hp, handover?_of_running hrun]
      rfl
    cases hf : b.machine.isFinished with
    | true =>
      rw [htick (progress?_of_isFinished hrun hf), World.run_of_isFinished hf]
      exact ⟨.inl ⟨by omega, rfl, hrun⟩, rfl, rfl⟩
    | false =>
      have hq := inquiry?_eq_none_of_run hl hstop hreads
      have hstep := step_of_inquiry?_eq_none hl hq
      have hnew := b.reads_step
      rw [World.newReads_of_inquiry?_eq_none hq] at hnew
      obtain ⟨k, rfl⟩ := World.exists_eq_succ_of_run hf hstop
      -- The window makes the step that the run makes.
      have hresult : (world b.machine "").step.1 = b.step.1 := by rw [hstep]
      have hmachine : (world b.machine "").step.2.machine = b.step.2.machine := by rw [hstep]
      have hlines : b.step.2.lines = ({} : Script).lines := by rw [hstep]
      rw [htick (progress?_of_inquiry?_eq_none hrun hf hq), hresult, hmachine]
      refine ⟨?_, rfl, rfl⟩
      rcases hs : b.step with ⟨f | ⟨⟩, b'⟩
      · have hend : b.run (k + 1) = .stopped f b' := by
          simp only [World.run, hf, on_advance, hs]
          rfl
        rw [hend]
        exact .inl ⟨by omega, rfl, rfl⟩
      · rw [hs] at hlines hnew
        have hnext : b.run (k + 1) = b'.run k := World.run_succ_of_next ((on_advance b).trans hs) k
        rw [hnext] at hstop hreads ⊢
        refine .inr ⟨k, b', by omega, rfl, rfl, hlines, hstop, rfl, fun c => ?_⟩
        rw [hreads c, hnew c, Nat.zero_add]

/-- **Whatever is done meanwhile**, after the steps of the loop that were missing the machine has
been published. -/
theorem publishes (h : Within n j m) {bs : List Action} (hn : n ≤ bs.count .moved) :
    ∃ cs ds, bs = cs ++ ds ∧ j.Publishes m (cs.foldl act j) := by
  induction bs generalizing n j with
  | nil =>
    exfalso
    have hzero : n = 0 := Nat.le_zero.1 hn
    obtain ⟨hpos, -⟩ | ⟨k, b, hpos, -⟩ := h <;> omega
  | cons a bs ih =>
    by_cases ha : a = .moved
    · subst ha
      have hact : j.act .moved = j.tick := if_pos rfl
      obtain ⟨n, rfl⟩ : ∃ i, n = i + 1 := by
        refine ⟨n - 1, ?_⟩
        obtain ⟨hpos, -⟩ | ⟨k, b, hpos, -⟩ := h <;> omega
      obtain hpub | ⟨hless, hruns⟩ := h.tick
      · refine ⟨[.moved], bs, rfl, ?_⟩
        rw [List.foldl_cons, List.foldl_nil, hact]
        exact hpub
      · rw [List.count_cons_self] at hn
        obtain ⟨cs, ds, rfl, hpub⟩ := ih hless (Nat.le_of_succ_le_succ hn)
        refine ⟨.moved :: cs, ds, rfl, ?_⟩
        rw [List.foldl_cons, hact]
        exact hruns.publishes hpub
    · have hact : j.act a = j.attend a := if_neg ha
      obtain ⟨hsame, hruns⟩ := h.attend ha
      rw [List.count_cons_of_ne ha] at hn
      obtain ⟨cs, ds, rfl, hpub⟩ := ih hsame hn
      refine ⟨a :: cs, ds, rfl, ?_⟩
      rw [List.foldl_cons, hact]
      exact hruns.publishes hpub

end Within

/-- A run that stops is on its way to be published. -/
theorem Kept.exists_within (h : j.Kept) (hj : j.started = r :: rs)
    (hb : j.window.activity.isBusy = true) (hr : r.Leaves m) : ∃ n, Within n j m := by
  obtain ⟨m₀, hm₀⟩ := Activity.exists_machine? hb
  obtain ⟨r', rs', hj', -, hstands⟩ := h.busy m₀ hm₀
  obtain ⟨rfl, rfl⟩ := List.cons.inj (hj.symm.trans hj')
  obtain ⟨hd, hreach⟩ | ⟨hd, hleft⟩ := hstands
  · -- From where the run is now it goes on as the interpreter does, and reads nothing more.
    obtain ⟨b, hto, rfl, hl, hread⟩ := hreach {}
    obtain ⟨k, hstop, hm, hreads⟩ := Job.leaves_iff.1 hr
    obtain ⟨i, hi⟩ := World.exists_run_add hto
    have hrun : b.run k = (r.start {}).run k := by
      rw [← hi k]
      exact World.run_eq_of_le (Nat.le_add_left k i) hstop
    rw [← hrun] at hstop hm hreads
    have hreads' : ∀ c, (b.run k).world.reads c = b.reads c := fun c => by
      rw [hreads c, hread c]
    cases ha : j.window.activity with
    | idle =>
      rw [ha] at hb
      cases hb
    | running m₁ =>
      obtain rfl : m₁ = b.machine := Option.some.inj ((congrArg Activity.machine? ha).symm.trans hm₀)
      exact ⟨k + 2, .inr ⟨k, b, Nat.le_refl _, hd, ha, hl, hstop, hm, hreads'⟩⟩
    | suspended m₁ c =>
      obtain rfl : m₁ = b.machine := Option.some.inj ((congrArg Activity.machine? ha).symm.trans hm₀)
      have hq := inquiry?_eq_none_of_run hl hstop hreads'
      cases hq.symm.trans (h.orderly.inquiry _ c ha)
  · obtain rfl := Job.leaves_unique hr hleft
    exact ⟨1, .inl ⟨Nat.le_refl 1, hd, h.ended m hd⟩⟩

/-- A move of the window is one step of the loop, and another if the run is then over. -/
theorem window_act_moved (hd : j.due = none) :
    (j.window.act .moved).2 = if j.tick.due.isSome then j.tick.tick.window else j.tick.window := by
  have hmove : (j.window.act .moved).2 = (j.window.progress?.map told).getD j.window := rfl
  rw [hmove]
  cases hp : j.window.progress? with
  | none =>
    have htick : j.tick = j := by rw [tick, hd, hp]
    rw [htick, hd]
    rfl
  | some p =>
    obtain ⟨u, ended⟩ := p
    rw [tick_of_progress? hd hp]
    cases ended <;> rfl

/-- What is done at the window while a run is over leaves the run to the next step of the loop. -/
theorem publishes_of_due (h : j.Kept) (hd : j.due = some m) {bs : List Action}
    (hbs : Action.moved ∉ bs) : j.Publishes m ((bs ++ [Action.moved]).foldl act j) := by
  induction bs generalizing j with
  | nil => exact publishes_tick hd
  | cons a bs ih =>
    have ha : a ≠ .moved := by
      rintro rfl
      exact hbs List.mem_cons_self
    have hact : j.act a = j.attend a := if_neg ha
    have hbusy : j.window.activity ≠ .idle := fun hidle => by cases hidle.symm.trans (h.ended m hd)
    rw [List.cons_append, List.foldl_cons, hact]
    have hrest := ih (h.attend ha) hd fun hmem => hbs (List.mem_cons_of_mem a hmem)
    exact (sameRuns_attend ha hbusy).1.publishes hrest

/-- To start the program while a run is in progress starts none. -/
theorem act_run_of_busy (hb : j.window.activity.isBusy = true) (i : Int) :
    j.act (.signal .resetRunToEnd i) = { j with window := { j.window with
      dirty := false, signals := .styled "" :: j.window.signals,
      printed := j.window.printed ++ "FIXME\n" } } := by
  have hhandle := handle_run_of_busy hb i
  have hact : j.act (.signal .resetRunToEnd i) = j.attend (.signal .resetRunToEnd i) := if_neg nofun
  rw [hact, attend, Window.act, hhandle, hb]
  rfl

/-- **One run at a time.**  Whatever was done at a window, in whatever order with the steps of its
loop:

* a move of the window is what the loop does in one step, or in two if the run is over after the
  first;
* while no run is in progress, every run that was started has left its machine, and these machines
  are the ones that were published, each once and in the order of the runs; reads are not counted;
* the window shows the machine that was published last;
* while a run is in progress, whether it is over or not, all others have been published in this way;
  to start the program leaves a message and changes neither the runs nor anything of the window but
  that its text counts as run; and if the run stops, having read the texts that it was given, its
  machine is published after so many steps of the loop, whatever is done between them;
* when a run is over, the next step of the loop publishes its machine, whatever is done before it. -/
theorem runs_one_by_one (as : List Action) :
    let j := after as
    (j.due = none → (j.window.act .moved).2 =
      if j.tick.due.isSome then j.tick.tick.window else j.tick.window) ∧
    (j.window.activity.isBusy = false → j.due = none ∧ j.window.ioCounter = 0 ∧
      List.Forall₂ Job.Leaves j.started j.published) ∧
    (∀ m ∈ j.published.head?, j.window.shown = m) ∧
    (j.window.activity.isBusy = true →
      (∀ i, j.act (.signal .resetRunToEnd i) = { j with window := { j.window with
        dirty := false, signals := .styled "" :: j.window.signals,
        printed := j.window.printed ++ "FIXME\n" } }) ∧
      ∃ r rs, j.started = r :: rs ∧ List.Forall₂ Job.Leaves rs j.published ∧
        ∀ m, r.Leaves m → ∃ n, ∀ bs : List Action, n ≤ bs.count .moved →
          ∃ cs ds, bs = cs ++ ds ∧ j.Publishes m (after (as ++ cs))) ∧
    ∀ m, j.due = some m → j.window.activity.isBusy = true ∧
      ∀ bs, Action.moved ∉ bs → j.Publishes m (after (as ++ (bs ++ [.moved]))) := by
  have h : (after as).Kept := .after as
  simp only [after_append as]
  generalize after as = j at h ⊢
  refine ⟨window_act_moved, fun hidle => ?_, fun m hm => h.shown hm, fun hbusy => ⟨fun i => ?_, ?_⟩, fun m hd => ?_⟩
  · have hidle' := Activity.isBusy_eq_false_iff.1 hidle
    exact ⟨h.due_eq_none hidle', h.rested hidle', h.idle hidle'⟩
  · exact act_run_of_busy hbusy i
  · obtain ⟨m₀, hm₀⟩ := Activity.exists_machine? hbusy
    obtain ⟨r, rs, hj, hrs, -⟩ := h.busy m₀ hm₀
    refine ⟨r, rs, hj, hrs, fun m hm => ?_⟩
    obtain ⟨n, hn⟩ := h.exists_within hj hbusy hm
    exact ⟨n, fun bs hbs => hn.publishes hbs⟩
  · refine ⟨?_, fun bs hbs => publishes_of_due h hd hbs⟩
    rw [h.ended m hd]
    rfl

/-- A new window has run its empty program, then another program was started, and its run is over.
Before the window is told of it the program is started again: this starts nothing, and the next step
of the loop publishes what the run has left. -/
theorem runs_one_by_one_click_between :
    ∃ (as : List Action) (m : Machine), (after as).due = some m ∧
      m.cells.head? = some (.int 1) ∧ (after as).window.activity.isBusy = true ∧
      (after as).Publishes m (after (as ++ [.signal .resetRunToEnd 0, .moved])) ∧
      (after (as ++ [.signal .resetRunToEnd 0, .moved])).started = [⟨"+", {}⟩, ⟨"", {}⟩] ∧
      (after (as ++ [.signal .resetRunToEnd 0, .moved])).published.length = 2 ∧
      (after (as ++ [.signal .resetRunToEnd 0, .moved])).window.printed = "FIXME\n" := by
  obtain ⟨as, hcell, hruns⟩ : ∃ as : List Action,
      (after as).due.map (fun m => m.cells.head?) = some (some (.int 1)) ∧
      (after (as ++ [.signal .resetRunToEnd 0, .moved])).started = [⟨"+", {}⟩, ⟨"", {}⟩] ∧
      (after (as ++ [.signal .resetRunToEnd 0, .moved])).published.length = 2 ∧
      (after (as ++ [.signal .resetRunToEnd 0, .moved])).window.printed = "FIXME\n" :=
    ⟨[.moved, .moved, .composed " + ", .signal .resetRunToEnd 0, .moved, .moved],
      by decide +kernel⟩
  obtain ⟨m, hd, hm⟩ := Option.map_eq_some_iff.1 hcell
  obtain ⟨hbusy, hpub⟩ := (runs_one_by_one as).2.2.2.2 m hd
  refine ⟨as, m, hd, hm, hbusy, ?_, hruns⟩
  exact hpub [.signal .resetRunToEnd 0] (by decide)

end Journal

end TapeMachine
