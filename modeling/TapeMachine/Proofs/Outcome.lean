import TapeMachine.Proofs.Confinement
import TapeMachine.Proofs.Run
import TapeMachine.Proofs.Trace

/-!
# How runs end

A run that stops has come to the end of its program, or a step of it has ended in a fault.  The two
can be told apart by any one of three marks: where the position is left, whether the run was
counted, and whether the log ends in an error (`Interpreter.run_outcome`).  A fault leaves the
position where it was, inside the program or before it; and the steps themselves never note an
error, so the one that is noted when a run is given up is the only one and the last note.
-/

namespace TapeMachine

open Exec

namespace World

variable {w v : World} {program : List Char}

/-- No error was noted. -/
def Calm (w : World) : Prop := ∀ n, .note n ∈ w.trace → n.level ≠ .error

theorem load_calm (lines : Lines) (program : String) : (load lines program).Calm := by
  intro n hn
  cases List.mem_singleton.1 hn
  exact nofun

/-- A step notes no error, whether it works or ends in a fault. -/
theorem Calm.advance {r : Except Fault Unit} (hw : w.Calm) (h : advance.on w = (r, v)) :
    v.Calm := by
  intro n hn
  rw [on_advance] at h
  have htrace := w.trace_step
  rw [h] at htrace
  rw [htrace] at hn
  rcases List.mem_append.1 hn with hn | hn
  · exact may_of_mem_entries hn
  · exact hw n hn

/-- What holds of the world that a run leaves; `finished` says whether it came to its end. -/
structure Ended (program : List Char) (finished : Bool) (w : World) : Prop where
  program_eq : w.machine.program = program
  isFinished_eq : w.machine.isFinished = finished
  calm : w.Calm

end World

/-- What each ending of a run guarantees. -/
def Verdict.Guarantees (program : List Char) : Verdict → Prop
  | .finished w => w.Ended program true
  | .stopped _ w => w.Ended program false
  | .unfinished _ => True

/-- A run comes to its end at the end of the program, and is given up before it. -/
theorem World.run_guarantees {w : World} {program : List Char} (hp : w.machine.program = program)
    (hw : w.Calm) (n : Nat) : (w.run n).Guarantees program := by
  induction n generalizing w with
  | zero =>
    by_cases hf : w.machine.isFinished = true
    · rw [run_of_isFinished hf]
      exact ⟨hp, hf, hw⟩
    · rw [run, if_neg hf]
      trivial
  | succ n ih =>
    by_cases hf : w.machine.isFinished = true
    · rw [run_of_isFinished hf]
      exact ⟨hp, hf, hw⟩
    · rw [run, if_neg hf]
      rcases ha : advance.on w with ⟨f | _, u⟩
      · -- The step that ended in a fault left the position where it was.
        obtain ⟨symbol, buffer, hm, -⟩ := machine_of_advance_eq_error ha
        exact
          { program_eq := by rw [hm]; exact hp
            isFinished_eq := by rw [hm]; exact Bool.eq_false_iff.2 hf
            calm := hw.advance ha }
      · exact ih ((program_of_next ha).trans hp) (hw.advance ha)

theorem Machine.isFinished_eq_true_iff {m : Machine} {program : String}
    (hp : m.program = program.toList) :
    m.isFinished = true ↔ (program.length : Int) ≤ m.position := by
  rw [isFinished, decide_eq_true_iff, size, hp, String.length_toList]

/-! ### Reports -/

namespace Report

/-- The position was left at the end of the program, or past it. -/
def reachesEnd (r : Report) (program : String) : Bool :=
  decide ((program.length : Int) ≤ r.machine.position)

/-- The log, from a severity on, ends in an error, and that is its only one. -/
def EndsInError (r : Report) (severity : Int) : Prop :=
  ∃ earlier last, r.notes severity = earlier ++ [last] ∧ last.level = .error ∧
    ∀ n ∈ earlier, n.level ≠ .error

end Report

theorem World.level_ne_of_mem_notes {w : World} (hw : w.Calm) {severity : Int} {n : Note}
    (hn : n ∈ w.notes severity) : n.level ≠ .error := by
  obtain ⟨e, he, hnote⟩ := List.mem_filterMap.1 (List.mem_filter.1 hn).1
  cases e with
  | event x => cases hnote
  | note x =>
    cases hnote
    exact hw n (List.mem_reverse.1 he)

namespace Interpreter

/-- The run was counted: its position is at the end of the program, or past it, and its log has no
error. -/
structure Concludes (i i' : Interpreter) (program : String) (severity : Int) (r : Report) :
    Prop where
  reached : (program.length : Int) ≤ r.machine.position
  counted : i'.runCounter = i.runCounter + 1
  no_error : ∀ n ∈ r.notes severity, n.level ≠ .error

/-- The run was given up and not counted: its position is before the end of the program, and its
log ends in the only error. -/
structure GivesUp (i i' : Interpreter) (program : String) (severity : Int) (r : Report) :
    Prop where
  short : r.machine.position < program.length
  not_counted : i'.runCounter = i.runCounter
  error : r.EndsInError severity

variable {n : Nat} {i i' : Interpreter} {program : String} {r : Report} {severity : Int}

theorem concludes_or_givesUp (hs : severity ≤ Level.error.severity)
    (h : i.run n program = some (r, i')) :
    Concludes i i' program severity r ∨ GivesUp i i' program severity r := by
  have hw := World.run_guarantees (w := .load i.lines program) rfl (World.load_calm _ _) n
  unfold run at h
  rcases hv : (World.load i.lines program).run n with w | ⟨f, w⟩ | w
  · rw [hv] at h hw
    cases h
    exact .inl
      { reached := (Machine.isFinished_eq_true_iff hw.program_eq).1 hw.isFinished_eq
        counted := rfl
        no_error := fun _ hn => World.level_ne_of_mem_notes hw.calm hn }
  · rw [hv] at h hw
    cases h
    have hshort : ¬ (program.length : Int) ≤ w.machine.position := by
      rw [← Machine.isFinished_eq_true_iff hw.program_eq]
      exact Bool.eq_false_iff.1 hw.isFinished_eq
    refine .inr ⟨Int.lt_of_not_ge hshort, rfl, w.notes severity, .stopped f, ?_, rfl, ?_⟩
    · -- The note that the run was given up is weighty enough for the log.
      have hlogged : decide (severity ≤ (Note.stopped f).level.severity) = true :=
        decide_eq_true hs
      simp only [Report.notes, World.notes, List.filterMap_append, List.filter_append]
      simp [Entry.note?, hlogged]
    · exact fun _ hn => World.level_ne_of_mem_notes hw.calm hn
  · rw [hv] at h
    cases h

theorem not_concludes_and_givesUp :
    ¬ (Concludes i i' program severity r ∧ GivesUp i i' program severity r) := by
  rintro ⟨hc, ha⟩
  exact absurd ha.short (Int.not_lt.2 hc.reached)

/-- A run is counted exactly if it came to the end of its program. -/
theorem runCounter_of_run (h : i.run n program = some (r, i')) :
    i'.runCounter = i.runCounter + (r.reachesEnd program).toNat := by
  rcases concludes_or_givesUp (Int.le_refl _) h with hc | ha
  · rw [hc.counted, Report.reachesEnd, decide_eq_true hc.reached]
    rfl
  · rw [ha.not_counted, Report.reachesEnd, decide_eq_false (Int.not_le.2 ha.short)]
    rfl

theorem runAll_cons {p : String} {ps : List String} {reports : List (Report × Nat)}
    (h : i.runAll n (p :: ps) = some reports) :
    ∃ r j rest, i.run n p = some (r, j) ∧ j.runAll n ps = some rest ∧
      reports = (r, j.runCounter) :: rest := by
  simp only [runAll, Option.bind_eq_bind, Option.bind_eq_some_iff, Option.pure_def,
    Option.some.injEq, Prod.exists] at h
  obtain ⟨r, j, hrun, rest, hrest, hreports⟩ := h
  exact ⟨r, j, rest, hrun, hrest, hreports.symm⟩

theorem length_of_runAll {programs : List String} {reports : List (Report × Nat)}
    (h : i.runAll n programs = some reports) : reports.length = programs.length := by
  induction programs generalizing i reports with
  | nil =>
    cases h
    rfl
  | cons p ps ih =>
    obtain ⟨r, j, rest, -, hrest, rfl⟩ := runAll_cons h
    rw [List.length_cons, List.length_cons, ih hrest]

/-- Of runs one after another, those are counted that came to the end of their programs. -/
theorem runCounter_of_runAll {programs : List String} {reports : List (Report × Nat)}
    (h : i.runAll n programs = some reports) :
    ∀ k r count, reports[k]? = some (r, count) → count = i.runCounter +
      ((programs.zip reports).take (k + 1)).countP fun x => x.2.1.reachesEnd x.1 := by
  induction programs generalizing i reports with
  | nil =>
    cases h
    exact nofun
  | cons p ps ih =>
    obtain ⟨r₀, j, rest, hrun, hrest, rfl⟩ := runAll_cons h
    have hfirst := runCounter_of_run hrun
    intro k r count hk
    rw [List.zip_cons_cons, List.take_succ_cons, List.countP_cons]
    cases k with
    | zero =>
      cases hk
      simp only [List.take_zero, List.countP_nil, Nat.zero_add]
      rw [hfirst]
      cases r₀.reachesEnd p <;> rfl
    | succ k =>
      -- The first run comes first in the count and last in the sum.
      rw [ih hrest k r count hk, hfirst, Nat.add_assoc, Nat.add_comm (Bool.toNat _)]
      cases r₀.reachesEnd p <;> rfl

/-- **How runs end.**  For a log that shows errors, a run that stops has exactly one of two
outcomes: it came to the end of its program, was counted and logged no error; or it is left before
the end, was not counted, and its log ends in its only error.  So after any number of programs, run
one after another, the count is that of the runs that came to the end of their programs. -/
theorem run_outcome (severity : Int) (hs : severity ≤ Level.error.severity) (n : Nat)
    (i : Interpreter) :
    (∀ program r i', i.run n program = some (r, i') →
      (Concludes i i' program severity r ∨ GivesUp i i' program severity r) ∧
        ¬ (Concludes i i' program severity r ∧ GivesUp i i' program severity r)) ∧
    ∀ programs reports, i.runAll n programs = some reports → reports.length = programs.length ∧
      ∀ k r count, reports[k]? = some (r, count) → count = i.runCounter +
        ((programs.zip reports).take (k + 1)).countP fun x => x.2.1.reachesEnd x.1 := by
  refine ⟨?_, ?_⟩
  · intro program r i' h
    exact ⟨concludes_or_givesUp hs h, not_concludes_and_givesUp⟩
  · intro programs reports h
    exact ⟨length_of_runAll h, runCounter_of_runAll h⟩

/-- A run that closes a loop which was not opened is given up; with one run before it and one after
it, two are counted. -/
theorem run_outcome_unmatched :
    let i : Interpreter := {}
    (∃ r i', i.run 9 "]" = some (r, i') ∧ GivesUp i i' "]" Level.error.severity r) ∧
    ∃ reports r, i.runAll 9 ["+>", "]", "<"] = some reports ∧ reports[2]? = some (r, 2) := by
  intro i
  obtain ⟨hone, hall⟩ := run_outcome Level.error.severity (Int.le_refl _) 9 i
  refine ⟨?_, ?_⟩
  · have hposition : (i.run 9 "]").map (fun x => x.1.machine.position) = some 0 := by
      decide +kernel
    obtain ⟨⟨r, i'⟩, h, hr⟩ := Option.map_eq_some_iff.1 hposition
    refine ⟨r, i', h, ((hone "]" r i' h).1).resolve_left ?_⟩
    intro hc
    have hreached := hc.reached
    rw [hr] at hreached
    exact absurd hreached (by decide)
  · have hends : (i.runAll 9 ["+>", "]", "<"]).map (fun reports =>
        ((["+>", "]", "<"].zip reports).take 3).countP fun x => x.2.1.reachesEnd x.1) =
        some 2 := by
      decide +kernel
    obtain ⟨reports, h, hcount⟩ := Option.map_eq_some_iff.1 hends
    obtain ⟨hlength, htally⟩ := hall _ reports h
    have hlt : 2 < reports.length := by rw [hlength]; decide
    have hk := List.getElem?_eq_getElem hlt
    have hlast := htally 2 reports[2].1 reports[2].2 hk
    rw [hcount] at hlast
    exact ⟨reports, reports[2].1, h, hk.trans (congrArg (fun n => some (_, n)) hlast)⟩

end Interpreter

end TapeMachine
