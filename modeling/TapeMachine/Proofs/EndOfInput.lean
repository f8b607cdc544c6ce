import TapeMachine.Proofs.CharacterReads
import TapeMachine.Proofs.Outcome
import TapeMachine.Proofs.Stepping
import TapeMachine.Proofs.Streams

/-!
# The end of the input

A reader that has run out replies with the empty text, and no operation that reads can make anything
of that.  So a program on the command line reads at most as many characters as there are on standard
input; if it reads once more, the run is broken off there.  On the modem the same happens at the
first character that is no digit (`CommandLine.input_used_up`).

* `World.of_getElem?_course` : what led to a world in the course of a run and what follows it.
* `World.exists_reads` : a step that reads ends with the value of the text that it is given.
* `World.countP_reads_le` : as many reads work as there are replies.
-/

namespace TapeMachine

open Exec Operation

/-- No operation both reads and writes. -/
theorem Mode.speaksOn?_of_listensTo? {mode : Mode} {ch : Channel} (h : mode.listensTo? = some ch) :
    mode.speaksOn? = none := by
  cases mode with
  | consoleDecimalRead | consoleAsciiRead | modemAsciiRead => rfl
  | _ => cases h

namespace World

variable {w u v : World} {n k : Nat} {ch : Channel} {t : String}

/-- The next step works. -/
def works (w : World) : Bool := (advance.on w).1.isOk

/-! ### In the course of a run -/

theorem course_succ_of_next (h : w.Next u) (n : Nat) : w.course (n + 1) = w :: u.course n := by
  rw [course, not_isFinished_of_next h, show advance.on w = (.ok (), u) from h]
  rfl

section Fault

variable {f : Fault} (hf : w.machine.isFinished = false) (h : advance.on w = (.error f, u))
include hf h

theorem course_succ_of_error (n : Nat) : w.course (n + 1) = [w] := by
  rw [course, hf, h]
  rfl

theorem run_succ_of_error (n : Nat) : w.run (n + 1) = .stopped f u := by
  rw [run, hf, h]
  rfl

end Fault

/-- A run that is not over makes a step, and either goes on behind it or stops there. -/
theorem course_cases (w : World) (n : Nat) :
    w.course n = [] ∨ ∃ m later, n = m + 1 ∧ w.machine.isFinished = false ∧
      w.course n = w :: later ∧ ((∃ u, w.Next u ∧ later = u.course m) ∨
        ∃ f u, advance.on w = (.error f, u) ∧ later = []) := by
  cases n with
  | zero => exact .inl rfl
  | succ m =>
    cases hf : w.machine.isFinished with
    | true =>
      left
      rw [course, hf]
      rfl
    | false =>
      right
      rcases ha : advance.on w with ⟨f | _, u⟩
      · exact ⟨m, [], rfl, rfl, course_succ_of_error hf ha m, .inr ⟨f, u, rfl, rfl⟩⟩
      · exact ⟨m, u.course m, rfl, rfl, course_succ_of_next ha m, .inl ⟨u, ha, rfl⟩⟩

theorem lines_of_next (h : w.Next u) : u.lines =
    w.lines.drop fun ch => if w.machine.inquiry? = some ch then 1 else 0 := by
  have hlines := w.lines_step
  rwa [← on_advance, show advance.on w = (.ok (), u) from h] at hlines

/-- What led to a world in the course of a run, and what follows it. -/
theorem of_getElem?_course (h : (w.course n)[k]? = some v) :
    v.machine.isFinished = false ∧ (∃ m, n = k + (m + 1) ∧ w.steps k = (.ok (), v) ∧
      (w.course n).drop k = v.course (m + 1)) ∧
      v.lines = w.lines.drop fun ch =>
        ((w.course n).take k).countP fun u => u.machine.inquiry? = some ch := by
  induction k generalizing w n with
  | zero =>
    obtain hnil | ⟨m, later, rfl, hf, hcourse, -⟩ := w.course_cases n
    · rw [hnil] at h
      cases h
    · rw [hcourse] at h
      obtain rfl : w = v := Option.some.inj h
      exact ⟨hf, ⟨m, (Nat.zero_add _).symm, rfl, rfl⟩, (Lines.drop_zero _).symm⟩
  | succ k ih =>
    obtain hnil | ⟨m, later, rfl, -, hcourse, ⟨u, hu, rfl⟩ | ⟨f, u, -, rfl⟩⟩ := w.course_cases n
    · rw [hnil] at h
      cases h
    · rw [hcourse] at h ⊢
      obtain ⟨hfinished, ⟨j, rfl, hsteps, hdrop⟩, hlines⟩ := ih h
      refine ⟨hfinished, ⟨j, by omega, ?_, hdrop⟩, ?_⟩
      · rw [steps_succ_of_next hu, hsteps]
      · simp only [hlines, lines_of_next hu, Lines.drop_drop, List.take_succ_cons, List.countP_cons,
          decide_eq_true_eq, Nat.add_comm]
    · rw [hcourse] at h
      cases h

/-! ### Steps that read -/

/-- A step that reads ends with the value of the text that it is given: the empty text has none, and
on the modem only digits have one. -/
theorem exists_reads (hq : w.machine.inquiry? = some ch) (hg : (w.lines.get ch).Gives t) :
    ∃ mode r, w.machine.operation? = some mode ∧ w.Reads mode ch t r ∧
      (t = "" → r = .error (.notOneCharacter 0)) ∧ (ch = .modem → r = digitCodeOf t) := by
  obtain ⟨mode, hop, hlistens⟩ := Option.bind_eq_some_iff.1 hq
  cases mode with
  | consoleDecimalRead =>
    cases hlistens
    refine ⟨_, _, hop, reads_decimal hg, ?_, nofun⟩
    rintro rfl
    rfl
  | consoleAsciiRead =>
    cases hlistens
    refine ⟨_, _, hop, reads_console hg, ?_, nofun⟩
    rintro rfl
    rfl
  | modemAsciiRead =>
    cases hlistens
    refine ⟨_, _, hop, reads_modem hg, ?_, fun _ => rfl⟩
    rintro rfl
    rfl
  | _ => cases hlistens

/-- A read of a text without a value does not work. -/
theorem Reads.exists_advance {mode : Mode} {f : Fault} (h : w.Reads mode ch t (.error f))
    (hop : w.machine.operation? = some mode) : ∃ u, advance.on w = (.error f, u) := by
  obtain ⟨c, -, hstep⟩ := step_of_operation? hop
  obtain ⟨rest, heffect⟩ := h.exists_effect c
  rw [heffect] at hstep
  obtain ⟨g, hg, hs⟩ | ⟨hg, -⟩ := hstep
  · cases hg
    exact ⟨_, (on_advance w).trans hs⟩
  · cases hg

/-- A read works only if there is a reply. -/
theorem works_eq_false_of_exhausted (hq : w.machine.inquiry? = some ch)
    (h : (w.lines.get ch).input = some []) : w.works = false := by
  have hgives : (w.lines.get ch).Gives "" := by
    refine ⟨w.lines.get ch, ?_⟩
    rw [Line.ask?, h]
  obtain ⟨mode, r, hop, hreads, hempty, -⟩ := exists_reads hq hgives
  rw [hempty rfl] at hreads
  obtain ⟨u, hu⟩ := hreads.exists_advance hop
  rw [works, hu]
  rfl

/-- As many reads work as there are replies. -/
theorem countP_reads_le {rs : List Reply} (h : (w.lines.get ch).input = some rs) (n : Nat) :
    ((w.course n).countP fun v => v.machine.inquiry? = some ch ∧ v.works) ≤ rs.length := by
  induction n generalizing w rs with
  | zero => exact Nat.zero_le _
  | succ n ih =>
    obtain hnil | ⟨m, later, hm, -, hcourse, ⟨u, hu, rfl⟩ | ⟨f, u, hu, rfl⟩⟩ :=
      w.course_cases (n + 1)
    · rw [hnil]
      exact Nat.zero_le _
    · cases hm
      have hinput : (u.lines.get ch).input =
          some (rs.drop (if w.machine.inquiry? = some ch then 1 else 0)) := by
        rw [lines_of_next hu, Lines.get_drop, Line.drop, h]
        rfl
      have hrest := ih hinput
      rw [List.length_drop] at hrest
      rw [hcourse, List.countP_cons]
      by_cases hq : w.machine.inquiry? = some ch
      · -- A read that worked was given a reply, which is then no longer there.
        have hne : rs.length ≠ 0 := by
          intro hzero
          rw [List.length_eq_zero_iff.1 hzero] at h
          have hfails := works_eq_false_of_exhausted hq h
          rw [works, show advance.on w = (.ok (), u) from hu] at hfails
          cases hfails
        rw [if_pos hq] at hrest
        split <;> omega
      · rw [if_neg hq] at hrest
        simp only [hq, false_and, decide_false, Bool.false_eq_true, if_false]
        omega
    · have hfails : w.works = false := by
        rw [works, hu]
        rfl
      simp [hcourse, hfails]

end World

namespace CommandLine

open Arguments

variable {limit : Nat} {args : List String} {program stdin : String} {s : Settings} {ch : Channel}
  {k : Nat} {v : World}

/-- The worlds in which a command line makes its steps. -/
def courseOf (limit : Nat) (program : String) (s : Settings) (stdin : String) : List World :=
  (World.load (linesOf s stdin) program).course limit

/-- How often the first `k` steps read from a channel. -/
def readsBefore (course : List World) (k : Nat) (ch : Channel) : Nat :=
  (course.take k).countP fun v => v.machine.inquiry? = some ch

/-- The run of a command line that attaches a channel is broken off in the step that it makes after
`k` others. -/
structure BrokenOff (limit : Nat) (args : List String) (program : String) (s : Settings)
    (stdin : String) (ch : Channel) (k : Nat) : Prop where
  /-- The step is the last one. -/
  length_eq : (courseOf limit program s stdin).length = k + 1
  /-- It does not work. -/
  fails : ∀ v, (courseOf limit program s stdin)[k]? = some v → v.works = false
  ending_eq : (run limit args stdin).ending = .exit 0
  /-- Nothing is written in it or after it, but for two line breaks. -/
  stdout_eq : (run limit args stdin).stdout =
    String.join (((courseOf limit program s stdin).take k).map fun v => v.machine.utterance ch) ++
      "\n\n"
  /-- The run is not counted, and its log ends in an error, which is the only one. -/
  logged : ∃ r i, Interpreter.run limit { lines := linesOf s stdin } program = some (r, i) ∧
    i.runCounter = 0 ∧ r.EndsInError (threshold s.debug)

theorem threshold_le (debug : Bool) : threshold debug ≤ Level.error.severity := by
  cases debug <;> decide

theorem length_repliesOf (text : String) : (repliesOf text).length = text.length := by
  rw [repliesOf, List.length_map, String.length_toList]

section Attached

variable (hs : s.Exclusive) (hch : s.attaches ch = true)
  (hk : (courseOf limit program s stdin)[k]? = some v)
include hs hch hk

/-- A step that reads is given the character that comes next, or the empty text if there is none. -/
theorem gives_of_getElem?_course : (v.lines.get ch).Gives
    ((stdin.toList[readsBefore (courseOf limit program s stdin) k ch]?.map String.singleton).getD
      "") := by
  have hlines := (World.of_getElem?_course hk).2.2
  have hline : v.lines.get ch = Line.drop
      { input := some (repliesOf stdin), output := true, encodes := true }
      (readsBefore (courseOf limit program s stdin) k ch) := by
    rw [hlines, Lines.get_drop, World.load, get_linesOf hs, if_pos hch]
    rfl
  refine ⟨(v.lines.get ch).drop 1, ?_⟩
  have hreply : (v.lines.get ch).reply 0 = .text
      ((stdin.toList[readsBefore (courseOf limit program s stdin) k ch]?.map
        String.singleton).getD "") := by
    rw [hline, Line.reply_drop, Line.reply, Option.getD_some, Nat.add_zero, repliesOf,
      List.getD_eq_getElem?_getD, List.getElem?_map]
    cases stdin.toList[readsBefore (courseOf limit program s stdin) k ch]? <;> rfl
  rw [Line.ask?_eq, hreply, hline]
  rfl

/-- A read that does not work breaks the run off. -/
theorem brokenOff_of_error (hparse : parse args = .ok (program, s)) (hframe : s.frame = none)
    (hq : v.machine.inquiry? = some ch) {f : Fault} {u : World}
    (ha : Exec.advance.on v = (.error f, u)) : BrokenOff limit args program s stdin ch k := by
  obtain ⟨hfinished, ⟨m, rfl, hsteps, hdrop⟩, -⟩ := World.of_getElem?_course hk
  obtain ⟨course, hcourse⟩ : ∃ course, course = courseOf (k + (m + 1)) program s stdin := ⟨_, rfl⟩
  have hlast : course.drop k = [v] := by
    rw [hcourse]
    exact hdrop.trans (World.course_succ_of_error hfinished ha m)
  have hall : course = course.take k ++ [v] := by rw [← hlast, List.take_append_drop]
  have hrun : Interpreter.run (k + (m + 1)) { lines := linesOf s stdin } program =
      some (⟨u.machine, u.history ++ [.note (.stopped f)]⟩, { lines := u.lines }) := by
    rw [Interpreter.run, World.run_add_of_steps hsteps, World.run_succ_of_error hfinished ha]
  have hexecute : run (k + (m + 1)) args stdin = execute (k + (m + 1)) program s stdin := by
    rw [run, hparse]
  have hstop : (execute (k + (m + 1)) program s stdin).ending ≠ .unfinished := by
    simp only [execute, hrun, hframe, shownFrame]
    intro h
    cases h
  obtain ⟨hending, hstdout, -⟩ := execute_eq hframe hstop
  refine ⟨?_, ?_, ?_, ?_, ?_⟩
  · have hlength := congrArg List.length hlast
    rw [List.length_drop, List.length_singleton, hcourse] at hlength
    omega
  · intro v' hv'
    obtain rfl : v = v' := Option.some.inj (hk.symm.trans hv')
    rw [World.works, ha]
    rfl
  · rw [hexecute, hending]
  · -- The step that reads writes nothing itself.
    have hsilent : v.machine.utterance ch = "" := by
      refine Machine.utterance_of_ne ?_
      obtain ⟨mode, hop, hlistens⟩ := Option.bind_eq_some_iff.1 hq
      rw [hop, Option.bind_some, Mode.speaksOn?_of_listensTo? hlistens]
      intro h
      cases h
    have hwritten : writtenText (course.flatMap World.happenings) =
        String.join ((course.take k).map fun x => x.machine.utterance ch) := by
      rw [writtenText_flatMap fun x hx => writtenText_of_attaches hs (hcourse ▸ hx) hch]
      conv => lhs; rw [hall]
      rw [List.map_append, String.join_append, List.map_singleton, hsilent]
      exact String.append_empty
    rw [hexecute, hstdout, ← hcourse, ← hwritten, hcourse]
    rfl
  · obtain hc | hg := Interpreter.concludes_or_givesUp (threshold_le s.debug) hrun
    · exact absurd hc.counted Nat.zero_ne_one
    · exact ⟨_, _, hrun, rfl, hg.error⟩

end Attached

/-- **Reading past the end of the input breaks the run off.**  Let a command line be given that
attaches a channel to the standard streams and asks for no frame to be shown, and let its run make
any number of steps.

* At most as many of its reads work as there are characters on standard input.
* A read that comes when all of them have been read does not work.  It is the last step, nothing is
  written in it or afterwards but two line breaks, exactly one error is logged, and the run is not
  counted.
* On the modem a read works exactly if the next character is a digit, and its code modulo 256 is then
  in the current cell; a read of any other character breaks the run off in the same way. -/
theorem input_used_up (limit : Nat) (stdin : String) (hparse : parse args = .ok (program, s))
    (hframe : s.frame = none) (hch : s.attaches ch = true) :
    let course := courseOf limit program s stdin
    (course.countP fun v => v.machine.inquiry? = some ch ∧ v.works) ≤ stdin.length ∧
    ∀ k v, course[k]? = some v → v.machine.inquiry? = some ch →
      (stdin.length ≤ readsBefore course k ch → BrokenOff limit args program s stdin ch k) ∧
      (ch = .modem → ∀ c, stdin.toList[readsBefore course k ch]? = some c →
        if Text.isDigit c then ∃ u, v.Next u ∧ u.machine.cell = .ok (.int (c.toNat % 256))
        else BrokenOff limit args program s stdin ch k) := by
  intro course
  have hs := exclusive_of_parse hparse
  refine ⟨?_, fun k v hk hq => ⟨fun hused => ?_, ?_⟩⟩
  · have hinput : ((World.load (linesOf s stdin) program).lines.get ch).input =
        some (repliesOf stdin) := by
      rw [World.load, get_linesOf hs, if_pos hch]
    rw [← length_repliesOf]
    exact World.countP_reads_le hinput limit
  · have hgives := gives_of_getElem?_course hs hch hk
    rw [List.getElem?_eq_none (by rw [String.length_toList]; exact hused)] at hgives
    obtain ⟨mode, r, hop, hreads, hempty, -⟩ := World.exists_reads hq hgives
    rw [hempty rfl] at hreads
    obtain ⟨u, hu⟩ := hreads.exists_advance hop
    exact brokenOff_of_error hs hch hk hparse hframe hq hu
  · intro hmodem c hc
    have hgives := gives_of_getElem?_course hs hch hk
    rw [hc] at hgives
    obtain ⟨mode, r, hop, hreads, -, hdigit⟩ := World.exists_reads hq hgives
    rw [hdigit hmodem, Option.map_some, Option.getD_some, digitCodeOf_singleton] at hreads
    split
    · rename_i hd
      rw [if_pos hd] at hreads
      exact hreads.exists_next hop
    · rename_i hd
      rw [if_neg hd] at hreads
      obtain ⟨u, hu⟩ := hreads.exists_advance hop
      exact brokenOff_of_error hs hch hk hparse hframe hq hu

/-- A loop that reads digits from the modem and never looks for the end of the input: after one digit
the run is broken off, by the end of the input or by a letter. -/
theorem input_used_up_loop :
    let program := "+++++=?[?]"
    let args := ["-m", program]
    let s : Settings := { modem := true, program := some program }
    parse args = .ok (program, s) ∧ s.frame = none ∧ s.attaches .modem = true ∧
      readsBefore (courseOf 20 program s "7") 8 .modem = "7".length ∧
      BrokenOff 20 args program s "7" .modem 8 ∧ BrokenOff 20 args program s "7x" .modem 8 := by
  intro program args s
  have hparse : parse args = .ok (program, s) := by decide +kernel
  have hreads (stdin : String) (h : ((courseOf 20 program s stdin)[8]?.map fun v =>
      decide (v.machine.inquiry? = some .modem)) = some true) :
      ∃ v, (courseOf 20 program s stdin)[8]? = some v ∧ v.machine.inquiry? = some .modem := by
    obtain ⟨v, hv, hq⟩ := Option.map_eq_some_iff.1 h
    exact ⟨v, hv, of_decide_eq_true hq⟩
  have hbefore : readsBefore (courseOf 20 program s "7") 8 .modem = "7".length := by decide +kernel
  have hnext : "7x".toList[readsBefore (courseOf 20 program s "7x") 8 .modem]? = some 'x' := by
    decide +kernel
  obtain ⟨v, hv, hq⟩ := hreads "7" (by decide +kernel)
  obtain ⟨u, hu, hqu⟩ := hreads "7x" (by decide +kernel)
  have hend := (input_used_up 20 "7" hparse rfl rfl).2 8 v hv hq
  have hletter := (input_used_up 20 "7x" hparse rfl rfl).2 8 u hu hqu
  exact ⟨hparse, rfl, rfl, hbefore, hend.1 (Nat.le_of_eq hbefore.symm), hletter.2 rfl 'x' hnext⟩

end CommandLine

end TapeMachine
