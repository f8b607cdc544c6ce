import TapeMachine.Proofs.Run

/-!
# Input that is not read

A run reads its lines at moments that depend on what it has read before, and a read may fail, find
nothing or come after the last reply.  Whatever it does, it learns about its lines only what is
attached to them and the replies that it was given.  So if the replies that a run has read are
followed by others, or by none, the run is the same to the last entry of its log, and the replies
that it did not read are left (`Interpreter.run_unread`).

A transition of worlds is *frugal* when it can be repeated on any lines that agree with its own on
as many replies as it reads.  The operation of a mode is (`Mode.effect_frugal`), hence a step
(`World.step_frugal`), hence a run (`World.run_frugal`).
-/

namespace TapeMachine

open Exec

/-! ### Lines that agree on their first replies -/

namespace Line

variable {l m : Line} {j k : Nat}

/-- The reply of the reader to the question after `k` others; a reader that has run out replies with
the empty text. -/
def reply (l : Line) (k : Nat) : Reply := (l.input.getD []).getD k (.text "")

/-- The line after `k` questions to its reader. -/
def drop (l : Line) (k : Nat) : Line := { l with input := l.input.map (List.drop k) }

/-- The same is attached to both lines, and their readers give the same first `k` replies. -/
structure AgreeFor (k : Nat) (l m : Line) : Prop where
  output_eq : l.output = m.output
  encodes_eq : l.encodes = m.encodes
  attached_eq : l.input.isSome = m.input.isSome
  reply_eq : ∀ i < k, l.reply i = m.reply i

theorem ask?_eq (l : Line) :
    l.ask? = if l.input.isSome then some (l.reply 0, l.drop 1) else none := by
  obtain ⟨input, output, encodes⟩ := l
  rcases input with _ | _ | ⟨r, rs⟩ <;> rfl

theorem drop_zero (l : Line) : l.drop 0 = l := by
  obtain ⟨input, output, encodes⟩ := l
  cases input <;> rfl

theorem drop_drop (l : Line) (j k : Nat) : (l.drop j).drop k = l.drop (j + k) := by
  simp [drop, Function.comp_def]

theorem reply_drop (l : Line) (j i : Nat) : (l.drop j).reply i = l.reply (j + i) := by
  obtain ⟨input, output, encodes⟩ := l
  cases input with
  | none => simp [reply, drop]
  | some rs => simp [reply, drop, List.getD]

namespace AgreeFor

theorem rfl : AgreeFor k l l := ⟨.refl _, .refl _, .refl _, fun _ _ => .refl _⟩

theorem mono (h : AgreeFor k l m) (hjk : j ≤ k) : AgreeFor j l m :=
  { h with reply_eq := fun i hi => h.reply_eq i (Nat.lt_of_lt_of_le hi hjk) }

theorem drop (h : AgreeFor (j + k) l m) : AgreeFor k (l.drop j) (m.drop j) where
  output_eq := h.output_eq
  encodes_eq := h.encodes_eq
  attached_eq := by
    simp only [Line.drop, Option.isSome_map]
    exact h.attached_eq
  reply_eq := by
    intro i hi
    rw [reply_drop, reply_drop]
    exact h.reply_eq (j + i) (Nat.add_lt_add_left hi j)

end AgreeFor

end Line

namespace Lines

variable {ls ms : Lines} {j k : Channel → Nat}

/-- The lines after `k ch` questions on each channel `ch`. -/
def drop (ls : Lines) (k : Channel → Nat) : Lines where
  console := ls.console.drop (k .console)
  modem := ls.modem.drop (k .modem)

/-- On each channel `ch` the lines agree for `k ch` replies. -/
def AgreeFor (k : Channel → Nat) (ls ms : Lines) : Prop :=
  ∀ ch, (ls.get ch).AgreeFor (k ch) (ms.get ch)

theorem get_drop (ls : Lines) (k : Channel → Nat) (ch : Channel) :
    (ls.drop k).get ch = (ls.get ch).drop (k ch) := by
  cases ch <;> rfl

theorem drop_zero (ls : Lines) : ls.drop (fun _ => 0) = ls := by
  simp only [drop, Line.drop_zero]

theorem drop_drop (ls : Lines) (j k : Channel → Nat) :
    (ls.drop j).drop k = ls.drop fun ch => j ch + k ch := by
  simp only [drop, Line.drop_drop]

theorem set_drop_one (ls : Lines) (ch : Channel) :
    ls.set ch ((ls.get ch).drop 1) = ls.drop fun c => if ch = c then 1 else 0 := by
  cases ch <;> simp [set, get, drop, Line.drop_zero]

namespace AgreeFor

theorem rfl : AgreeFor k ls ls := fun _ => .rfl

theorem left (h : AgreeFor (fun ch => j ch + k ch) ls ms) : AgreeFor j ls ms :=
  fun ch => (h ch).mono (Nat.le_add_right _ _)

theorem drop (h : AgreeFor (fun ch => j ch + k ch) ls ms) :
    AgreeFor k (ls.drop j) (ms.drop j) := by
  intro ch
  rw [get_drop, get_drop]
  exact (h ch).drop

end AgreeFor

end Lines

/-! ### Operations -/

/-- The entry tells of a read on the channel. -/
def Entry.isReadOn (ch : Channel) : Entry → Bool
  | .event (.read c _) => c == ch
  | _ => false

namespace Effect

/-- The number of reads on a channel. -/
def reads (e : Effect) (ch : Channel) : Nat := e.entries.countP (Entry.isReadOn ch)

/-- The operation depends on the lines only by what is attached to them and by the replies that it
reads, and it takes these replies off the lines. -/
def Frugal (F : Situation → Effect) : Prop :=
  ∀ s ls, s.lines.AgreeFor (F s).reads ls →
    F { s with lines := ls } = { F s with lines := ls.drop (F s).reads }

/-- The operation neither reads nor depends on the lines. -/
structure Quiet (F : Situation → Effect) : Prop where
  relined : ∀ s ls, F { s with lines := ls } = { F s with lines := ls }
  reads_eq : ∀ s, (F s).reads = fun _ => 0

theorem Quiet.frugal {F : Situation → Effect} (h : Quiet F) : Frugal F := by
  intro s ls _
  rw [h.reads_eq, Lines.drop_zero]
  exact h.relined s ls

theorem quiet_ending {v : Situation → Except Fault (Option Cell)}
    (hv : ∀ s ls, v { s with lines := ls } = v s) : Quiet fun s => (s.keep []).ending (v s) where
  relined := by
    intro s ls
    simp only [hv]
    cases v s <;> rfl
  reads_eq := by
    intro s
    funext ch
    simp only [reads, entries_ending]
    rfl

theorem quiet_take {v : Situation → UInt8 → Except Fault (Option Cell)}
    (hv : ∀ s ls, v { s with lines := ls } = v s) : Quiet fun s => s.take (v s) where
  relined := by
    intro s ls
    simp only [Situation.take, hv]
    cases v s _ <;> rfl
  reads_eq := by
    intro s
    funext ch
    simp only [reads, Situation.take, entries_ending]
    rfl

theorem quiet_enqueue : Quiet Situation.enqueue where
  relined := by
    intro s ls
    simp only [Situation.enqueue]
    (repeat' split) <;> rfl
  reads_eq := by
    intro s
    funext ch
    simp only [Situation.enqueue]
    (repeat' split) <;> rfl

theorem quiet_takeLast : Quiet Situation.takeLast where
  relined := by
    intro s ls
    simp only [Situation.takeLast]
    split <;> rfl
  reads_eq := by
    intro s
    funext ch
    simp only [Situation.takeLast]
    split <;> rfl

theorem quiet_jump (landing : Situation → Int → Int)
    (h : ∀ s ls, landing { s with lines := ls } = landing s) :
    Quiet fun s => s.jump (landing s) where
  relined := by
    intro s ls
    simp only [Situation.jump, h]
    split <;> rfl
  reads_eq := by
    intro s
    funext ch
    simp only [Situation.jump]
    split <;> rfl

theorem quiet_task : Quiet Situation.task where
  relined := by
    intro s ls
    simp only [Situation.task]
    split
    · rfl
    · rename_i t _
      cases t <;> simp only [Task.effect] <;> (repeat' split) <;> rfl
  reads_eq := by
    intro s
    funext ch
    simp only [Situation.task]
    split
    · rfl
    · rename_i t _
      cases t <;> simp only [Task.effect] <;> (repeat' split) <;> rfl

theorem refusal?_eq {l m : Line} (h : l.encodes = m.encodes) : l.refusal? = m.refusal? := by
  funext x
  cases x <;> simp only [Line.refusal?, h]

/-- A write depends on the writer, if one is attached. -/
theorem write_frugal (ch : Channel) {x : Situation → Except Fault Writing}
    (h : ∀ s ls, x { s with lines := ls } = x s) : Frugal fun s => s.write ch (x s) := by
  intro s ls hls
  have hreads : (s.write ch (x s)).reads = fun _ => 0 := by
    funext c
    simp only [Situation.write]
    (repeat' split) <;> rfl
  have hout := (hls ch).output_eq
  have hrefusal := refusal?_eq (hls ch).encodes_eq
  simp only [hreads, Lines.drop_zero]
  simp only [Situation.write, h, ← hout, ← hrefusal]
  (repeat' split) <;> rfl

/-- A read asks once on its channel, if a reader is attached. -/
theorem reads_read {s : Situation} {ch : Channel} (h : (s.lines.get ch).input.isSome = true)
    (nothing : Fault) (value : String → Except Fault Cell) :
    (s.read ch nothing value).reads = fun c => if ch = c then 1 else 0 := by
  funext c
  simp only [reads, Situation.read, Line.ask?_eq, h, ↓reduceIte]
  cases (s.lines.get ch).reply 0 with
  | text t => simp [entries_ending, Entry.isReadOn, List.countP_cons]
  | nothing => simp [Entry.isReadOn, List.countP_cons]
  | failure reason => simp [Entry.isReadOn, List.countP_cons]

/-- A read depends on the next reply. -/
theorem read_frugal (ch : Channel) (nothing : Fault) (value : String → Except Fault Cell) :
    Frugal fun s => s.read ch nothing value := by
  intro s ls hls
  have hsame := (hls ch).attached_eq
  cases hin : (s.lines.get ch).input.isSome with
  | false =>
    have hreads : (s.read ch nothing value).reads = fun _ => 0 := by
      funext c
      simp only [reads, Situation.read, Line.ask?_eq, hin]
      rfl
    rw [hin] at hsame
    simp only [hreads, Lines.drop_zero]
    simp only [Situation.read, Line.ask?_eq, hin, ← hsame]
    rfl
  | true =>
    -- Both lines give the same reply, and both have one less afterwards.
    have hreads := reads_read hin nothing value
    rw [hin] at hsame
    rw [hreads] at hls
    have hreply : (s.lines.get ch).reply 0 = (ls.get ch).reply 0 := by
      refine (hls ch).reply_eq 0 ?_
      simp
    simp only [hreads]
    simp only [Situation.read, Line.ask?_eq, hin, ← hsame, ↓reduceIte, ← hreply,
      Lines.set_drop_one]
    cases (s.lines.get ch).reply 0 with
    | text t =>
      dsimp only
      cases value t <;> rfl
    | nothing => rfl
    | failure reason => rfl

end Effect

open Effect

/-- **Operations are frugal.** -/
theorem Mode.effect_frugal (m : Mode) : Frugal m.effect := by
  cases m with
  | consoleDecimalWrite | consoleAsciiWrite | modemAsciiWrite =>
    exact write_frugal _ fun _ _ => rfl
  | consoleDecimalRead | consoleAsciiRead | modemAsciiRead => exact read_frugal _ _ _
  | bufferProgram | clearBuffer => exact Quiet.frugal ⟨fun _ _ => rfl, fun _ => rfl⟩
  | executeTask => exact quiet_task.frugal
  | enqueue => exact quiet_enqueue.frugal
  | dequeueLast => exact quiet_takeLast.frugal
  | dequeueFirst | add | sub | mul | div | and | or | xor =>
    exact (quiet_take fun _ _ => rfl).frugal
  | toLowerCase | toUpperCase | toDecimal | toOperator | not | getPointer | getPosition =>
    exact (quiet_ending fun _ _ => rfl).frugal
  | jumpLeft | jumpRight => exact (quiet_jump _ fun _ _ => rfl).frugal

/-! ### Steps -/

namespace World

variable {α : Type} {w : World}

/-- The world with its lines replaced. -/
def withLines (w : World) (ls : Lines) : World := { w with lines := ls }

@[simp] theorem machine_withLines (w : World) (ls : Lines) :
    (w.withLines ls).machine = w.machine := rfl

/-- The number of reads on a channel that the trace tells of. -/
def reads (w : World) (ch : Channel) : Nat := w.trace.countP (Entry.isReadOn ch)

/-- The transition can be repeated on all lines that agree with those of `w` on the replies that it
reads, and it takes these replies off the lines. -/
def Frugal (T : World → Except Fault α × World) (w : World) : Prop :=
  ∃ k : Channel → Nat, (∀ ch, (T w).2.reads ch = w.reads ch + k ch) ∧
    ∀ ls, w.lines.AgreeFor k ls → T (w.withLines ls) = ((T w).1, (T w).2.withLines (ls.drop k))

theorem frugal_of_quiet {T : World → Except Fault α × World} (hr : (T w).2.reads = w.reads)
    (h : ∀ ls, T (w.withLines ls) = ((T w).1, (T w).2.withLines ls)) : Frugal T w := by
  refine ⟨fun _ => 0, ?_, ?_⟩
  · intro ch
    rw [hr, Nat.add_zero]
  · intro ls _
    rw [Lines.drop_zero]
    exact h ls

theorem Frugal.congr {T T' : World → Except Fault α × World} (h : Frugal T w)
    (he : ∀ ls, T' (w.withLines ls) = T (w.withLines ls)) : Frugal T' w := by
  obtain ⟨k, hreads, hrun⟩ := h
  have hw : T' w = T w := he w.lines
  refine ⟨k, ?_, ?_⟩
  · intro ch
    rw [hw]
    exact hreads ch
  · intro ls hls
    rw [he, hw]
    exact hrun ls hls

/-- A transition that goes one of two ways, as the machine says, is frugal if both ways are. -/
theorem frugal_of_branches {p : Machine → Prop} [DecidablePred p]
    {T U V : World → Except Fault α × World} (h : ∀ v, T v = if p v.machine then U v else V v)
    (hU : Frugal U w) (hV : Frugal V w) : Frugal T w := by
  by_cases hp : p w.machine
  · refine hU.congr fun ls => ?_
    rw [h, machine_withLines, if_pos hp]
  · refine hV.congr fun ls => ?_
    rw [h, machine_withLines, if_neg hp]

/-- The lines that a frugal transition leaves. -/
theorem lines_of_frugal {T : World → Except Fault α × World} {k : Channel → Nat}
    (h : ∀ ls, w.lines.AgreeFor k ls →
      T (w.withLines ls) = ((T w).1, (T w).2.withLines (ls.drop k))) :
    (T w).2.lines = w.lines.drop k := by
  have hself := h w.lines .rfl
  exact congrArg (fun r => r.2.lines) hself

end World

namespace Operator

variable (o : Operator) (w : World) (c : Cell)

theorem skip_frugal : World.Frugal o.skip w := by
  refine World.frugal_of_quiet ?_ ?_
  · cases o with
    | endLoop =>
      simp only [skip]
      split <;> rfl
    | _ => rfl
  · intro ls
    cases o with
    | endLoop =>
      simp only [skip, World.machine_withLines]
      cases w.machine.loops <;> rfl
    | _ => rfl

theorem operate_frugal : World.Frugal (work .operate · c) w := by
  cases hm : Mode.ofCell? w.machine.mode with
  | none =>
    refine World.frugal_of_quiet ?_ ?_
    · simp only [work, hm]
      rfl
    · intro ls
      simp only [work, World.machine_withLines, hm]
      rfl
  | some m =>
    refine ⟨(m.effect (w.situation c)).reads, ?_, ?_⟩
    · intro ch
      simp only [work, hm, World.reads, World.apply, List.countP_append]
      exact Nat.add_comm _ _
    · intro ls hls
      have heffect := m.effect_frugal (w.situation c) ls hls
      simp only [work, World.machine_withLines, hm]
      rw [show (w.withLines ls).situation c = { w.situation c with lines := ls } from rfl, heffect]
      rfl

theorem work_frugal : World.Frugal (o.work · c) w := by
  cases o with
  | operate => exact operate_frugal w c
  | setMode => exact World.frugal_of_quiet rfl fun _ => rfl
  | advance =>
    refine World.frugal_of_branches (p := fun m => m.pointer = m.cells.length) (fun _ => rfl) ?_ ?_
    · exact World.frugal_of_quiet rfl fun _ => rfl
    · exact World.frugal_of_quiet rfl fun _ => rfl
  | retreat =>
    refine World.frugal_of_branches (p := fun m => m.pointer = 0) (fun _ => rfl) ?_ ?_
    · exact World.frugal_of_quiet rfl fun _ => rfl
    · exact World.frugal_of_quiet rfl fun _ => rfl
  | increment =>
    cases c with
    | block bs => exact World.frugal_of_quiet rfl fun _ => rfl
    | int i =>
      refine World.frugal_of_branches (p := fun _ => i = State.byteMax) (fun _ => rfl) ?_ ?_
      · exact World.frugal_of_quiet rfl fun _ => rfl
      · exact World.frugal_of_quiet rfl fun _ => rfl
  | decrement =>
    cases c with
    | block bs => exact World.frugal_of_quiet rfl fun _ => rfl
    | int i =>
      refine World.frugal_of_branches (p := fun _ => i = 0) (fun _ => rfl) ?_ ?_
      · exact World.frugal_of_quiet rfl fun _ => rfl
      · exact World.frugal_of_quiet rfl fun _ => rfl
  | beginLoop =>
    refine World.frugal_of_branches (p := fun _ => c = Cell.zero) (fun _ => rfl) ?_ ?_
    · exact World.frugal_of_quiet rfl fun _ => rfl
    · exact World.frugal_of_quiet rfl fun _ => rfl
  | endLoop =>
    refine World.frugal_of_quiet ?_ fun ls => ?_
    · simp only [work]
      cases w.machine.loops <;> rfl
    · simp only [work, World.machine_withLines]
      cases w.machine.loops <;> rfl

theorem act_frugal : World.Frugal (o.act · c) w := by
  cases hd : w.machine.isDead with
  | true => exact (o.skip_frugal w).congr fun _ => act_of_dead hd
  | false => exact (o.work_frugal w c).congr fun _ => act_of_live hd

end Operator

namespace World

variable {w : World}

theorem step_frugal (w : World) : Frugal step w := by
  cases hi : w.machine.instruction with
  | error f =>
    refine frugal_of_quiet ?_ fun ls => ?_
    · simp only [step, hi]
    · simp only [step, machine_withLines, hi]
  | ok ch =>
    cases ho : Operator.ofSymbol? ch with
    | none =>
      refine frugal_of_quiet ?_ fun ls => ?_
      · simp only [step, hi, ho]
        rfl
      · simp only [step, machine_withLines, hi, ho]
        rfl
    | some o =>
      cases hc : w.machine.cell with
      | error f =>
        refine frugal_of_quiet ?_ fun ls => ?_
        · simp only [step, hi, ho, hc]
          rfl
        · simp only [step, machine_withLines, hi, ho, hc]
          rfl
      | ok c =>
        -- The notes around the operator are no reads and do not touch the lines.
        obtain ⟨k, hreads, hrun⟩ := o.act_frugal (w.started o c) c
        dsimp only at hreads hrun
        refine ⟨k, ?_, ?_⟩
        · intro ch
          refine Eq.trans ?_ (hreads ch)
          simp only [step, hi, ho, hc]
          rcases o.act (w.started o c) c with ⟨f | why, v⟩ <;> rfl
        · intro ls hls
          have hact := hrun ls hls
          simp only [step, machine_withLines, hi, ho, hc]
          rw [show (w.withLines ls).started o c = (w.started o c).withLines ls from rfl, hact]
          rcases o.act (w.started o c) c with ⟨f | why, v⟩ <;> rfl

end World

/-! ### Runs -/

/-- The verdict with the lines replaced. -/
def Verdict.withLines (ls : Lines) : Verdict → Verdict
  | .finished w => .finished (w.withLines ls)
  | .stopped f w => .stopped f (w.withLines ls)
  | .unfinished w => .unfinished (w.withLines ls)

namespace World

/-- **Runs are frugal.**  A run can be repeated on all lines that agree with its own on the replies
that it reads. -/
theorem run_frugal (n : Nat) (w : World) :
    ∃ k : Channel → Nat, (∀ ch, (w.run n).world.reads ch = w.reads ch + k ch) ∧
      ∀ ls, w.lines.AgreeFor k ls →
        (w.withLines ls).run n = (w.run n).withLines (ls.drop k) := by
  induction n generalizing w with
  | zero =>
    refine ⟨fun _ => 0, ?_, ?_⟩
    · intro ch
      rw [run]
      split <;> rfl
    · intro ls _
      rw [Lines.drop_zero]
      cases hf : w.machine.isFinished <;> simp only [run, machine_withLines, hf] <;> rfl
  | succ n ih =>
    cases hf : w.machine.isFinished with
    | true =>
      refine ⟨fun _ => 0, ?_, ?_⟩
      · intro ch
        rw [run_of_isFinished hf]
        rfl
      · intro ls _
        rw [run_of_isFinished hf, run_of_isFinished (w := w.withLines ls) hf, Lines.drop_zero]
        rfl
    | false =>
      obtain ⟨j, hreads, hstep⟩ := step_frugal w
      have hlines := lines_of_frugal hstep
      simp only [run, machine_withLines, hf, on_advance, Bool.false_eq_true, ↓reduceIte]
      rcases hw : w.step with ⟨f | _, v⟩
      · rw [hw] at hreads hstep
        refine ⟨j, hreads, ?_⟩
        intro ls hls
        rw [hstep ls hls]
        rfl
      · rw [hw] at hreads hstep hlines
        -- What the first step reads comes before what the others read.
        obtain ⟨k, hreads', hrun⟩ := ih v
        refine ⟨fun ch => j ch + k ch, ?_, ?_⟩
        · intro ch
          rw [hreads' ch, hreads ch, Nat.add_assoc]
        · intro ls hls
          rw [hstep ls hls.left, ← Lines.drop_drop]
          refine hrun (ls.drop j) ?_
          rw [hlines]
          exact hls.drop

end World

/-- The number of reads on a channel that a run has made. -/
def Report.reads (r : Report) (ch : Channel) : Nat := r.history.countP (Entry.isReadOn ch)

theorem World.countP_history (w : World) (ch : Channel) :
    w.history.countP (Entry.isReadOn ch) = w.reads ch := by
  rw [history, List.countP_reverse]
  rfl

namespace Interpreter

/-- The report of a run tells of all its reads; the note of a fault at its end is none. -/
theorem reads_of_run {n : Nat} {i i' : Interpreter} {program : String} {r : Report}
    (h : i.run n program = some (r, i')) :
    r.reads = ((World.load i.lines program).run n).world.reads := by
  unfold run at h
  funext ch
  rcases hv : (World.load i.lines program).run n with w | ⟨f, w⟩ | w
  · rw [hv] at h
    cases h
    exact w.countP_history ch
  · rw [hv] at h
    cases h
    rw [Report.reads, List.countP_append, w.countP_history]
    rfl
  · rw [hv] at h
    cases h

/-- **Input that is not read has no influence.**  If a run stops, then on all lines with the same
attachments that agree with its own on the replies that it has read, the run stops as well and
leaves the same report: the same machine with its frames, the same events and the same log.  What is
left on the lines is what was not read. -/
theorem run_unread {n : Nat} {i i' : Interpreter} {program : String} {r : Report}
    (h : i.run n program = some (r, i')) {ls : Lines} (hls : i.lines.AgreeFor r.reads ls) :
    { i with lines := ls }.run n program = some (r, { i' with lines := ls.drop r.reads }) := by
  obtain ⟨k, hreads, hrun⟩ := World.run_frugal n (.load i.lines program)
  have hload : World.load ls program = (World.load i.lines program).withLines ls := rfl
  -- The run begins with an empty trace, so all reads of the report are its own.
  have hzero : ∀ ch, (World.load i.lines program).reads ch = 0 := fun _ => rfl
  have hk : r.reads = k := by
    funext ch
    rw [reads_of_run h, hreads ch, hzero ch, Nat.zero_add]
  rw [hk] at hls ⊢
  unfold run at h ⊢
  rw [hload, hrun ls hls]
  rcases hv : (World.load i.lines program).run n with w | ⟨f, w⟩ | w
  · rw [hv] at h
    cases h
    rfl
  · rw [hv] at h
    cases h
    rfl
  · rw [hv] at h
    cases h

/-- A number is read, and then nothing is left: on a line with more replies the second of which is
empty, the run is the same. -/
theorem run_unread_exhausted :
    let i : Interpreter := { lines := { console := { input := some [.text "7"] } } }
    let ls : Lines := { console := { input := some [.text "7", .text "", .text "more"] } }
    ∃ r i', i.run 9 "+=??" = some (r, i') ∧ r.reads .console = 2 ∧ i.lines.AgreeFor r.reads ls ∧
      { i with lines := ls }.run 9 "+=??" = some (r, { i' with lines := ls.drop r.reads }) ∧
      ls.drop r.reads = { console := { input := some [.text "more"] } } := by
  intro i ls
  have hcounts : (i.run 9 "+=??").map (fun x => (x.1.reads .console, x.1.reads .modem)) =
      some (2, 0) := by decide +kernel
  obtain ⟨⟨r, i'⟩, h, hreads⟩ := Option.map_eq_some_iff.1 hcounts
  obtain ⟨hconsole, hmodem⟩ := Prod.ext_iff.1 hreads
  dsimp only at hconsole hmodem
  have hagree : i.lines.AgreeFor r.reads ls := by
    intro ch
    cases ch with
    | console => exact ⟨rfl, rfl, rfl, by rw [hconsole]; decide⟩
    | modem => exact ⟨rfl, rfl, rfl, by rw [hmodem]; decide⟩
  refine ⟨r, i', h, hconsole, hagree, run_unread h hagree, ?_⟩
  rw [Lines.drop, hconsole, hmodem]
  rfl

end Interpreter

end TapeMachine
