import TapeMachine.Proofs.Step

/-!
# The damage of a failing step

A step that ends in a fault has already done something: it has fetched its instruction, and an
operation may have taken bytes from the buffer before it failed.  Here it is shown that nothing
else is left of it (`Exec.advance_fault_confined`): the tape, the pointer, the mode, the loops, the
position, the target and the frames are those of before, and the buffer has at most lost bytes from
its front.

The argument follows the step.  An effect is *confined* when, in case of a fault, it stores nothing,
jumps nowhere and keeps a suffix of the buffer; the effect of every mode is
(`Mode.effect_confined`), since a byte is only ever taken from the back by an operation that cannot
fail any more.
-/

namespace TapeMachine

namespace Effect

/-- In case of a fault nothing is stored, no jump is set, and a suffix of `bs` is left as buffer. -/
def Confined (e : Effect) (bs : List UInt8) : Prop :=
  ∀ f, e.fault = some f → e.stored = none ∧ e.target = none ∧ e.buffer <:+ bs

theorem confined_of_fault_eq_none {e : Effect} {bs : List UInt8} (h : e.fault = none) :
    e.Confined bs := by
  intro f hf
  rw [h] at hf
  cases hf

theorem confined_of_suffix {e : Effect} {bs : List UInt8} (hs : e.stored = none)
    (ht : e.target = none) (hb : e.buffer <:+ bs) : e.Confined bs :=
  fun _ _ => ⟨hs, ht, hb⟩

theorem ending_confined {e : Effect} {bs : List UInt8} (hf : e.fault = none) (hs : e.stored = none)
    (ht : e.target = none) (hb : e.buffer <:+ bs) (r : Except Fault (Option Cell)) :
    (e.ending r).Confined bs := by
  cases r with
  | ok stored => exact confined_of_fault_eq_none hf
  | error f => exact confined_of_suffix hs ht hb

end Effect

open Effect

namespace Situation

variable (s : Situation)

theorem ending_keep_confined (r : Except Fault (Option Cell)) :
    ((s.keep []).ending r).Confined s.buffer :=
  ending_confined rfl rfl rfl List.suffix_rfl r

theorem write_confined (ch : Channel) (x : Except Fault Writing) :
    (s.write ch x).Confined s.buffer := by
  unfold write
  split
  · split
    · split
      · exact confined_of_fault_eq_none rfl
      · exact confined_of_suffix rfl rfl List.suffix_rfl
    · exact confined_of_suffix rfl rfl List.suffix_rfl
  · exact confined_of_fault_eq_none rfl

theorem read_confined (ch : Channel) (nothing : Fault) (value : String → Except Fault Cell) :
    (s.read ch nothing value).Confined s.buffer := by
  unfold read
  split
  · exact confined_of_fault_eq_none rfl
  · dsimp only
    split
    · exact ending_confined rfl rfl rfl List.suffix_rfl _
    · exact confined_of_suffix rfl rfl List.suffix_rfl
    · exact confined_of_suffix rfl rfl List.suffix_rfl

theorem take_confined (value : UInt8 → Except Fault (Option Cell)) :
    (s.take value).Confined s.buffer :=
  ending_confined rfl rfl rfl (List.tail_suffix _) _

theorem takeLast_confined : s.takeLast.Confined s.buffer := by
  unfold takeLast
  split <;> exact confined_of_fault_eq_none rfl

theorem enqueue_confined : s.enqueue.Confined s.buffer := by
  unfold enqueue
  split
  · exact confined_of_suffix rfl rfl List.suffix_rfl
  · split
    · exact confined_of_fault_eq_none rfl
    · exact confined_of_suffix rfl rfl List.suffix_rfl

theorem jump_confined (landing : Int → Int) : (s.jump landing).Confined s.buffer := by
  unfold jump
  split
  · exact confined_of_suffix rfl rfl List.suffix_rfl
  · exact confined_of_fault_eq_none rfl

end Situation

theorem Task.effect_confined (t : Task) (s : Situation) : (t.effect s).Confined s.buffer := by
  cases t with
  | config => exact confined_of_suffix rfl rfl List.suffix_rfl
  | blinken =>
    simp only [Task.effect]
    split
    · exact confined_of_suffix rfl rfl List.nil_suffix
    · exact confined_of_suffix rfl rfl List.suffix_rfl
  | scroller =>
    simp only [Task.effect]
    split
    · rename_i pingPong steps blanks rest hb
      -- Three bytes are gone before the rest is looked at.
      have hrest : rest <:+ s.buffer := hb ▸ ⟨[pingPong, steps, blanks], rfl⟩
      split
      · exact confined_of_fault_eq_none rfl
      · exact confined_of_suffix rfl rfl hrest
    · exact confined_of_suffix rfl rfl List.nil_suffix
  | autoDialTone =>
    simp only [Task.effect]
    split
    · split
      · exact confined_of_suffix rfl rfl List.nil_suffix
      · exact confined_of_fault_eq_none rfl
    · exact confined_of_suffix rfl rfl List.suffix_rfl
  | interpreter | toneGenerator | editor | commandLine | dialer =>
    simp only [Task.effect]
    split
    · exact confined_of_fault_eq_none rfl
    · exact confined_of_suffix rfl rfl List.suffix_rfl

theorem Situation.task_confined (s : Situation) : s.task.Confined s.buffer := by
  unfold Situation.task
  split
  · exact confined_of_suffix rfl rfl List.suffix_rfl
  · exact Task.effect_confined _ s

/-- The effect of every mode is confined. -/
theorem Mode.effect_confined (m : Mode) (s : Situation) : (m.effect s).Confined s.buffer := by
  cases m with
  | consoleDecimalWrite | consoleAsciiWrite | modemAsciiWrite => exact s.write_confined _ _
  | consoleDecimalRead | consoleAsciiRead | modemAsciiRead => exact s.read_confined _ _ _
  | bufferProgram | clearBuffer => exact confined_of_fault_eq_none rfl
  | executeTask => exact s.task_confined
  | enqueue => exact s.enqueue_confined
  | dequeueLast => exact s.takeLast_confined
  | dequeueFirst | add | sub | mul | div | and | or | xor => exact s.take_confined _
  | toLowerCase | toUpperCase | toDecimal | toOperator | not | getPointer | getPosition =>
    exact s.ending_keep_confined _
  | jumpLeft | jumpRight => exact s.jump_confined _

namespace Operator

theorem machine_of_skip_eq_error {o : Operator} {w v : World} {f : Fault}
    (ha : o.skip w = (.error f, v)) : v.machine = w.machine := by
  cases o with
  | endLoop =>
    simp only [skip] at ha
    split at ha <;> cases ha
    rfl
  | _ => cases ha

theorem machine_of_operate_eq_error {w v : World} {c : Cell} {f : Fault}
    (ha : work .operate w c = (.error f, v)) :
    ∃ bs, bs <:+ w.machine.buffer ∧ v.machine = { w.machine with buffer := bs } := by
  simp only [work] at ha
  split at ha
  · cases ha
    exact ⟨_, List.suffix_rfl, rfl⟩
  · rename_i m _
    have hc := m.effect_confined (w.situation c)
    cases hf : (m.effect (w.situation c)).fault with
    | none => simp [Effect.result, hf, Except.map] at ha
    | some g =>
      obtain ⟨hs, ht, hb⟩ := hc g hf
      obtain ⟨-, rfl⟩ := Prod.ext_iff.1 ha
      exact ⟨_, hb, by simp [World.apply, World.noted, hs, ht]⟩

/-- An operator that ends in a fault leaves the machine as it was, but for bytes that are gone from
the front of the buffer. -/
theorem machine_of_act_eq_error {o : Operator} {w v : World} {c : Cell} {f : Fault}
    (ha : o.act w c = (.error f, v)) :
    ∃ bs, bs <:+ w.machine.buffer ∧ v.machine = { w.machine with buffer := bs } := by
  unfold act at ha
  split at ha
  · exact ⟨_, List.suffix_rfl, machine_of_skip_eq_error ha⟩
  · cases o with
    | operate => exact machine_of_operate_eq_error ha
    | endLoop =>
      simp only [work] at ha
      split at ha <;> cases ha
      exact ⟨_, List.suffix_rfl, rfl⟩
    | increment | decrement =>
      simp only [work] at ha
      split at ha
      · cases ha
        exact ⟨_, List.suffix_rfl, rfl⟩
      · split at ha <;> cases ha
    | advance | retreat | beginLoop =>
      simp only [work] at ha
      split at ha <;> cases ha
    | setMode => cases ha

end Operator

namespace Exec

/-- A step that ends in a fault changes at most the instruction fetched last and the buffer. -/
theorem machine_of_advance_eq_error {w w' : World} {f : Fault}
    (h : advance.on w = (.error f, w')) :
    ∃ symbol buffer, w'.machine = { w.machine with symbol, buffer } ∧
      (symbol = w.machine.symbol ∨
        ∃ ch, Index.get w.machine.program w.machine.position = .ok ch ∧
          symbol = some (String.singleton ch)) ∧
      buffer <:+ w.machine.buffer := by
  rcases advance_eq_error_iff.1 h with ⟨-, rfl⟩ | ⟨ch, hi, rfl, -⟩ | ⟨o, c, hi, -, ha⟩
  · exact ⟨_, _, rfl, .inl rfl, List.suffix_rfl⟩
  · exact ⟨_, _, rfl, .inr ⟨ch, Machine.get_of_instruction_eq_ok hi, rfl⟩, List.suffix_rfl⟩
  · obtain ⟨bs, hbs, hv⟩ := Operator.machine_of_act_eq_error ha
    exact ⟨_, bs, hv, .inr ⟨_, Machine.get_of_instruction_eq_ok hi, rfl⟩, hbs⟩

/-- **The damage of a failing step is confined.**  A step that ends in a fault leaves the position,
the pointer, the tape, the mode, the loops, the target, the frames and the program as they were.
The instruction fetched last is that of before, or the one at the position; the buffer is a suffix
of that of before. -/
theorem advance_fault_confined {w w' : World} {f : Fault} (h : advance.on w = (.error f, w')) :
    (w'.machine.position = w.machine.position ∧ w'.machine.pointer = w.machine.pointer ∧
      w'.machine.cells = w.machine.cells ∧ w'.machine.mode = w.machine.mode ∧
      w'.machine.deadDepth = w.machine.deadDepth ∧ w'.machine.loops = w.machine.loops ∧
      w'.machine.target = w.machine.target ∧ w'.machine.frames = w.machine.frames ∧
      w'.machine.program = w.machine.program) ∧
    (w'.machine.symbol = w.machine.symbol ∨
      ∃ ch, Index.get w.machine.program w.machine.position = .ok ch ∧
        w'.machine.symbol = some (String.singleton ch)) ∧
    w'.machine.buffer <:+ w.machine.buffer := by
  obtain ⟨symbol, buffer, hm, hsymbol, hbuffer⟩ := machine_of_advance_eq_error h
  rw [hm]
  exact ⟨⟨rfl, rfl, rfl, rfl, rfl, rfl, rfl, rfl, rfl⟩, hsymbol, hbuffer⟩

end Exec

/-- A machine that is about to hand its buffer to the scroller, with a byte in it that is no
character. -/
def World.scrolling : World where
  machine := { State.initial with
    cells := .int 4 :: List.replicate 255 Cell.zero
    mode := .int 7
    buffer := [1, 2, 3, 200]
    program := ['?']
    frames := #[] }

set_option maxRecDepth 20000 in
/-- The scroller takes its three settings before it fails. -/
theorem Exec.scroller_fault_confined :
    advance.on .scrolling = (.error (.notAscii 200 0), (advance.on .scrolling).2) ∧
      (advance.on .scrolling).2.machine.buffer = [200] ∧
      (advance.on .scrolling).2.machine.buffer <:+ World.scrolling.machine.buffer :=
  have h : advance.on .scrolling = (.error (.notAscii 200 0), (advance.on .scrolling).2) := rfl
  ⟨h, by decide +kernel, (advance_fault_confined h).2.2⟩

end TapeMachine
