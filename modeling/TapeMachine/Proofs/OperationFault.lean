import TapeMachine.Proofs.Step
import Mathlib.Tactic.SplitIfs

/-!
# Faults of operations and faults of brackets

A closing bracket with no open loop ends in a fault of its own, and so does a pointer that addresses
no cell.  No operation of a mode ends in either (`Mode.effect_fault`).  So a step that ends in the
first has evaluated a closing bracket while the stack of loops was empty
(`Exec.of_advance_eq_unmatchedClose`).
-/

namespace TapeMachine

open Operation

/-- The fault is neither that of a closing bracket with no open loop nor that of a pointer which
addresses no cell. -/
def Fault.OfOperation : Fault → Prop
  | .unmatchedClose _ | .noCell _ | .noStore _ => False
  | _ => True

namespace Operation

variable {f : Fault}

theorem characterOf_fault {c : Cell} (h : characterOf c = .error f) : f.OfOperation := by
  unfold characterOf at h
  split at h
  · cases h; trivial
  · split_ifs at h <;> cases h <;> trivial

theorem codeOf_fault {t : String} (h : codeOf t = .error f) : f.OfOperation := by
  unfold codeOf at h
  split at h <;> cases h
  trivial

theorem numberOf_fault {t : String} (h : numberOf t = .error f) : f.OfOperation := by
  unfold numberOf at h
  split_ifs at h
  · unfold numeralOf at h
    split at h <;> cases h <;> trivial
  · cases hc : codeOf t <;> rw [hc] at h <;> cases h
    exact codeOf_fault hc

theorem asciiText_fault {bs : List UInt8} (h : asciiText bs = .error f) : f.OfOperation := by
  unfold asciiText at h
  split at h <;> cases h
  trivial

end Operation

theorem Effect.ending_fault {e : Effect} {r : Except Fault (Option Cell)} {f : Fault}
    (h : (e.ending r).fault = some f) (he : e.fault = none)
    (hr : ∀ g, r = .error g → g.OfOperation) : f.OfOperation := by
  cases r with
  | ok stored =>
    have hf : e.fault = some f := h
    rw [he] at hf
    cases hf
  | error g =>
    cases h
    exact hr f rfl

namespace Situation

variable {s : Situation} {f : Fault}

theorem ofNumber_fault {block : Fault} {value : Int → Except Fault (Option Cell)}
    (h : s.ofNumber block value = .error f) (hb : block.OfOperation)
    (hv : ∀ i, value i = .error f → f.OfOperation) : f.OfOperation := by
  unfold ofNumber at h
  split at h
  · exact hv _ h
  · cases h; exact hb

theorem combined_fault {op : Bitwise} {q : UInt8} (h : s.combined op q = .error f) :
    f.OfOperation := by
  refine ofNumber_fault h trivial fun i hi => ?_
  unfold zeroBlock at hi
  split_ifs at hi <;> cases hi <;> trivial

theorem quotient_fault {q : UInt8} (h : s.quotient q = .error f) : f.OfOperation := by
  unfold quotient at h
  split_ifs at h
  refine ofNumber_fault h trivial fun i hi => ?_
  split at hi <;> cases hi
  trivial

theorem operatorCode_fault (h : s.operatorCode = .error f) : f.OfOperation := by
  refine ofNumber_fault h trivial fun i hi => ?_
  split_ifs at hi
  split at hi <;> cases hi
  trivial

theorem refusal?_fault {l : Line} {x : Writing} (h : l.refusal? x = some f) : f.OfOperation := by
  unfold Line.refusal? at h
  split at h
  · cases h
  · split_ifs at h
    cases h
    trivial

theorem write_fault {ch : Channel} {x : Except Fault Writing}
    (h : (s.write ch x).fault = some f) (hx : ∀ g, x = .error g → g.OfOperation) :
    f.OfOperation := by
  unfold write at h
  split_ifs at h
  · split at h
    · split at h
      · cases h
      · rename_i hr
        cases h
        exact refusal?_fault hr
    · cases h
      exact hx _ rfl
  · cases h

theorem read_fault {ch : Channel} {nothing : Fault} {value : String → Except Fault Cell}
    (h : (s.read ch nothing value).fault = some f) (hn : nothing.OfOperation)
    (hv : ∀ t g, value t = .error g → g.OfOperation) : f.OfOperation := by
  unfold read at h
  split at h
  · cases h
  · rename_i reply _ _
    cases reply with
    | text t =>
      refine Effect.ending_fault h rfl fun g hg => hv t g ?_
      cases ht : value t <;> rw [ht] at hg <;> cases hg
      rfl
    | nothing => cases h; exact hn
    | failure reason => cases h; trivial

theorem take_fault {value : UInt8 → Except Fault (Option Cell)}
    (h : (s.take value).fault = some f) (hv : ∀ q g, value q = .error g → g.OfOperation) :
    f.OfOperation :=
  Effect.ending_fault h rfl (hv _)

theorem enqueue_fault (h : s.enqueue.fault = some f) : f.OfOperation := by
  unfold enqueue at h
  split at h
  · cases h; trivial
  · split_ifs at h <;> cases h
    trivial

theorem jump_fault {landing : Int → Int} (h : (s.jump landing).fault = some f) :
    f.OfOperation := by
  unfold jump at h
  split at h <;> cases h
  trivial

theorem task_fault (h : s.task.fault = some f) : f.OfOperation := by
  unfold task at h
  split at h
  · cases h; trivial
  · rename_i t _
    cases t with
    | config => cases h; trivial
    | blinken =>
      simp only [Task.effect] at h
      split at h <;> cases h
      · trivial
      · exact asciiText_fault ‹_›
    | scroller =>
      simp only [Task.effect] at h
      split at h
      · split at h <;> cases h
        exact asciiText_fault ‹_›
      · cases h; trivial
    | autoDialTone =>
      simp only [Task.effect] at h
      split at h
      · split at h <;> cases h
        trivial
      · cases h; exact asciiText_fault ‹_›
    | interpreter | toneGenerator | editor | commandLine | dialer =>
      simp only [Task.effect] at h
      split at h <;> cases h
      exact asciiText_fault ‹_›

end Situation

open Situation

/-- The operation of a mode does not end in the fault of a bracket. -/
theorem Mode.effect_fault {m : Mode} {s : Situation} {f : Fault}
    (h : (m.effect s).fault = some f) : f.OfOperation := by
  cases m with
  | bufferProgram | clearBuffer | not | getPointer | getPosition => cases h
  | consoleDecimalWrite => exact write_fault h fun g hg => by cases hg
  | consoleAsciiWrite | modemAsciiWrite =>
    exact write_fault h fun g hg => characterOf_fault hg
  | consoleDecimalRead =>
    refine read_fault h trivial fun t g hg => ?_
    cases hc : numberOf t <;> rw [hc] at hg <;> cases hg
    exact numberOf_fault hc
  | consoleAsciiRead =>
    refine read_fault h trivial fun t g hg => ?_
    cases hc : codeOf t <;> rw [hc] at hg <;> cases hg
    exact codeOf_fault hc
  | modemAsciiRead =>
    refine read_fault h trivial fun t g hg => ?_
    split at hg
    · split_ifs at hg
      cases hg
      trivial
    · cases hg
      exact codeOf_fault ‹_›
  | executeTask => exact task_fault h
  | enqueue => exact enqueue_fault h
  | dequeueLast =>
    simp only [effect, takeLast] at h
    split at h <;> cases h
  | dequeueFirst => exact take_fault h fun q g hg => by cases hg
  | add | sub | mul =>
    refine take_fault h fun q g hg => ?_
    exact ofNumber_fault hg trivial fun i hi => by cases hi
  | div => exact take_fault h fun q g hg => quotient_fault hg
  | and | or | xor => exact take_fault h fun q g hg => combined_fault hg
  | toLowerCase | toUpperCase | toDecimal =>
    refine Effect.ending_fault h rfl fun g hg => ?_
    exact ofNumber_fault hg trivial fun i hi => by cases hi
  | toOperator => exact Effect.ending_fault h rfl fun g hg => operatorCode_fault hg
  | jumpLeft | jumpRight => exact jump_fault h

theorem State.ne_unmatchedClose_of_cell {s : State} {p : Int} :
    s.cell ≠ .error (.unmatchedClose p) := by
  unfold cell
  split <;> rintro ⟨⟩

theorem Machine.ne_unmatchedClose_of_instruction {m : Machine} {p : Int} :
    m.instruction ≠ .error (.unmatchedClose p) := by
  unfold instruction
  split_ifs
  · rintro ⟨⟩
  · split <;> rintro ⟨⟩

theorem Operator.of_act_eq_unmatchedClose {o : Operator} {w v : World} {c : Cell} {p : Int}
    (h : o.act w c = (.error (.unmatchedClose p), v)) :
    o = .endLoop ∧ w.machine.loops = [] ∧ p = w.machine.position := by
  unfold act at h
  split at h
  · cases o with
    | endLoop =>
      simp only [skip] at h
      split at h <;> cases h
      exact ⟨rfl, ‹_›, rfl⟩
    | _ => cases h
  · cases o with
    | endLoop =>
      simp only [work] at h
      split at h <;> cases h
      exact ⟨rfl, ‹_›, rfl⟩
    | operate =>
      simp only [work] at h
      split at h
      · cases h
      · rename_i m _
        cases hf : (m.effect (w.situation c)).fault with
        | none => simp [Effect.result, hf, Except.map] at h
        | some f =>
          simp only [Effect.result, hf, Except.map, Prod.mk.injEq, Except.error.injEq] at h
          -- The fault of an operation is not that of a bracket.
          exact (h.1 ▸ Mode.effect_fault hf : Fault.OfOperation (.unmatchedClose p)).elim
    | increment | decrement =>
      simp only [work] at h
      split at h
      · cases h
      · split_ifs at h <;> cases h
    | advance | retreat | beginLoop =>
      simp only [work] at h
      split_ifs at h <;> cases h
    | setMode => cases h

namespace Exec

/-- Only a closing bracket that finds no open loop ends in the fault of one. -/
theorem of_advance_eq_unmatchedClose {w w' : World} {p : Int}
    (h : advance.on w = (.error (.unmatchedClose p), w')) :
    w.machine.instruction = .ok Operator.endLoop.symbol ∧ w.machine.loops = [] ∧
      p = w.machine.position := by
  obtain ⟨hi, -⟩ | ⟨ch, -, -, ⟨-, hf⟩ | ⟨-, hc⟩⟩ | ⟨o, c, hi, -, ha⟩ := advance_eq_error_iff.1 h
  · exact absurd hi Machine.ne_unmatchedClose_of_instruction
  · cases hf
  · exact absurd hc State.ne_unmatchedClose_of_cell
  · obtain ⟨rfl, hl, hp⟩ := Operator.of_act_eq_unmatchedClose ha
    exact ⟨hi, hl, hp⟩

end Exec

end TapeMachine
