import TapeMachine.Proofs.Exec

/-!
# The effect of an operation

The operation of a mode reads the current cell and its number, the position, the buffer, the
program and the lines: a `Situation`.  It leaves an `Effect`: a fault if it ended in one, a cell to
be stored, a target to jump to, the buffer, the lines, and what it added to the trace.
`Mode.effect` gives the effect of every mode as a function of the situation, and `Mode.on_perform`
says that carrying the operation out is applying that effect.

Three shapes cover most modes: an operation that writes (`Situation.write`), one that reads a line
(`Situation.read`) and one that takes the oldest byte of the buffer (`Situation.take`).
-/

namespace TapeMachine

/-- What the operation of a mode reads. -/
structure Situation where
  /-- The current cell. -/
  cell : Cell
  /-- Its number. -/
  pointer : Int
  /-- The position of the instruction. -/
  position : Int
  /-- The buffer, its oldest byte first. -/
  buffer : List UInt8
  /-- The program's text. -/
  program : List Char
  /-- The lines of both channels. -/
  lines : Lines

/-- What the operation of a mode leaves behind. -/
structure Effect where
  /-- The fault it ended in. -/
  fault : Option Fault := none
  /-- What the current cell is replaced by. -/
  stored : Option Cell := none
  /-- Where the step is to jump to. -/
  target : Option Int := none
  /-- The buffer. -/
  buffer : List UInt8
  /-- The lines of both channels. -/
  lines : Lines
  /-- What is added to the trace, the latest first. -/
  entries : List Entry := []

namespace Effect

/-- The effect with its ending: a fault, or a cell to be stored if there is one. -/
def ending (e : Effect) : Except Fault (Option Cell) → Effect
  | .ok stored => { e with stored }
  | .error f => { e with fault := some f }

@[simp] theorem entries_ending (e : Effect) (r : Except Fault (Option Cell)) :
    (e.ending r).entries = e.entries := by
  cases r <;> rfl

/-- The result of the operation. -/
def result (e : Effect) : Except Fault Unit :=
  match e.fault with
  | some f => .error f
  | none => .ok ()

end Effect

namespace Situation

variable (s : Situation)

/-- Nothing changes but the trace. -/
def keep (entries : List Entry) : Effect := { buffer := s.buffer, lines := s.lines, entries }

/-- What is noted when the oldest byte of a buffer is taken. -/
def takenNote : List UInt8 → Note
  | b :: _ => .dequeued b
  | [] => .nothingQueued

/-- Hands something to the writer of a channel, if one is attached. -/
def write (ch : Channel) (x : Except Fault Writing) : Effect :=
  if (s.lines.get ch).output then
    match x with
    | .ok x =>
      match (s.lines.get ch).refusal? x with
      | none => s.keep [.event (.wrote ch x.shown), .note (.writing x.shown)]
      | some f => { s.keep [.note (.writing x.shown)] with fault := some f }
    | .error f => { s.keep [] with fault := some f }
  else s.keep []

/-- Reads a text on a channel, if a reader is attached, and stores its value; `nothing` is the
fault when the reader has nothing. -/
def read (ch : Channel) (nothing : Fault) (value : String → Except Fault Cell) : Effect :=
  match (s.lines.get ch).ask? with
  | none => s.keep []
  | some (reply, line) =>
    let asked : Effect :=
      { buffer := s.buffer, lines := s.lines.set ch line, entries := [.event (.read ch reply)] }
    match reply with
    | .text t =>
      { asked with entries := .note (.reading (some t)) :: asked.entries }.ending
        ((value t).map some)
    | .nothing =>
      { asked with entries := .note (.reading none) :: asked.entries, fault := some nothing }
    | .failure reason => { asked with fault := some (.lineFailure reason) }

/-- Takes the oldest byte of the buffer, or a zero if there is none, and ends with its value. -/
def take (value : UInt8 → Except Fault (Option Cell)) : Effect :=
  { s.keep [.note (takenNote s.buffer)] with buffer := s.buffer.tail }.ending
    (value (s.buffer.headD 0))

/-- Takes the newest byte of the buffer into the current cell, or a zero if there is none. -/
def takeLast : Effect :=
  match s.buffer.getLast? with
  | some b =>
    { s.keep [.note (.dequeued b)] with buffer := s.buffer.dropLast, stored := some (.int b.toNat) }
  | none => { s.keep [.note .nothingQueued] with stored := some Cell.zero }

/-- Queues the current cell. -/
def enqueue : Effect :=
  match s.cell with
  | .block _ => { s.keep [.note (.storing s.cell)] with fault := some .blockForNumber }
  | .int i =>
    if 0 ≤ i ∧ i < 256 then
      { s.keep [.note (.storing s.cell)] with buffer := s.buffer ++ [UInt8.ofNat i.toNat] }
    else { s.keep [.note (.storing s.cell)] with fault := some .notAByte }

/-- Sets a jump by the length of the program, or by the current cell if that is larger. -/
def jump (landing : Int → Int) : Effect :=
  match s.cell with
  | .block _ => { s.keep [] with fault := some .blockJump }
  | .int i => { s.keep [] with target := some (landing (max (s.program.length : Int) i)) }

end Situation

open Operation

/-- What a task does with the buffer. -/
def Task.effect (t : Task) (s : Situation) : Effect :=
  match t with
  | .interpreter | .toneGenerator | .editor | .commandLine | .dialer =>
    match asciiText s.buffer with
    | .ok text => { s.keep [.note (.announced t [text])] with buffer := [] }
    | .error f => { s.keep [] with fault := some f }
  | .config => { s.keep [] with fault := some (.missingTask .config) }
  | .blinken =>
    match asciiText s.buffer with
    | .ok _ => { s.keep [] with buffer := [], fault := some .lampSettings }
    | .error f => { s.keep [] with fault := some f }
  | .scroller =>
    match s.buffer with
    | pingPong :: steps :: blanks :: rest =>
      match asciiText rest with
      | .ok text =>
        { s.keep [.note (.announced t [byteText pingPong, byteText steps, byteText blanks, text])]
          with buffer := [] }
      | .error f => { s.keep [] with buffer := rest, fault := some f }
    | _ => { s.keep [] with buffer := [], fault := some .shortBuffer }
  | .autoDialTone =>
    match asciiText s.buffer with
    | .ok text =>
      match text.toList with
      | [] => { s.keep [] with buffer := [], fault := some .emptyText }
      | number :: _ =>
        { s.keep [.note (.announced t [String.singleton number, text])] with buffer := [] }
    | .error f => { s.keep [] with fault := some f }

namespace Situation

variable (s : Situation)

/-- Executes the task that the current cell selects. -/
def task : Effect :=
  match Task.ofCell? s.cell with
  | none =>
    { s.keep [.note (.warned (.unknownTask s.cell s.position))] with
      fault := some (.unknownTask s.cell s.position) }
  | some t => { t.effect s with entries := (t.effect s).entries ++ [.note (.executing t)] }

/-- The value of a number in the current cell; of a block there is none. -/
def ofNumber (block : Fault) (value : Int → Except Fault (Option Cell)) :
    Except Fault (Option Cell) :=
  match s.cell with
  | .int i => value i
  | .block _ => .error block

/-- A number below `bound` moved by `offset`. -/
def shifted (bound offset : Int) : Except Fault (Option Cell) :=
  s.ofNumber .blockConversion fun i =>
    .ok (if i < bound then some (.int (i + offset)) else none)

/-- The code of the operator that the current cell numbers. -/
def operatorCode : Except Fault (Option Cell) :=
  s.ofNumber .blockConversion fun i =>
    if i < 8 then
      match Index.get operatorCodes i with
      | .ok code => .ok (some (.int code))
      | .error f => .error (.noOperatorNumber f)
    else .ok none

/-- The rounded quotient of the current cell by a byte other than zero. -/
def quotient (q : UInt8) : Except Fault (Option Cell) :=
  if q = 0 then .ok none
  else s.ofNumber .blockQuotient fun i =>
    match Rounding.divide? i q.toNat with
    | some r => .ok (some (.int (min r 1)))
    | none => .error .oversizedQuotient

/-- The block that a bitwise operation with a byte leaves. -/
def combined (op : Bitwise) (q : UInt8) : Except Fault (Option Cell) :=
  s.ofNumber (.blockBitwise op) fun i => (zeroBlock (bitwise op i q.toNat)).map some

end Situation

/-- The effect of the operation of a mode. -/
def Mode.effect (m : Mode) (s : Situation) : Effect :=
  match m with
  | .consoleDecimalWrite => s.write .console (.ok (.text s.cell.text))
  | .consoleDecimalRead =>
    s.read .console .nothingForNumber fun t => (numberOf t).map toByte
  | .consoleAsciiWrite => s.write .console (characterOf s.cell)
  | .consoleAsciiRead =>
    s.read .console .nothingForCharacter fun t => (codeOf t).map fun n => toByte n
  | .modemAsciiWrite => s.write .modem (characterOf s.cell)
  | .modemAsciiRead =>
    s.read .modem .nothingForNumber fun t =>
      match codeOf t with
      | .ok n => if Text.isDigits t.toList then .ok (toByte n) else .error .numberForCharacter
      | .error f => .error f
  | .bufferProgram =>
    { s.keep [] with buffer := (String.ofList s.program).toUTF8.data.toList }
  | .executeTask => s.task
  | .enqueue => s.enqueue
  | .dequeueLast => s.takeLast
  | .dequeueFirst => s.take fun b => .ok (some (.int b.toNat))
  | .clearBuffer => { s.keep [] with buffer := [] }
  | .toLowerCase => (s.keep []).ending (s.shifted 26 97)
  | .toUpperCase => (s.keep []).ending (s.shifted 26 65)
  | .toDecimal => (s.keep []).ending (s.shifted 10 48)
  | .toOperator => (s.keep []).ending s.operatorCode
  | .add => s.take fun q => s.ofNumber .blockSum fun i =>
      .ok (some (.int (max (i + q.toNat) State.byteMax)))
  | .sub => s.take fun q => s.ofNumber .blockSum fun i =>
      .ok (some (.int (min (i + q.toNat) 0)))
  | .mul => s.take fun q => s.ofNumber .blockProduct fun i =>
      .ok (some (.int (min (i * q.toNat) State.byteMax)))
  | .div => s.take s.quotient
  | .and => s.take (s.combined .and)
  | .or => s.take (s.combined .or)
  | .not => (s.keep []).ending (.ok (some (.int (if s.cell.isTrue then 0 else 1))))
  | .xor => s.take (s.combined .xor)
  | .getPointer => (s.keep []).ending (.ok (some (.int s.pointer)))
  | .getPosition => (s.keep []).ending (.ok (some (.int (s.position + 1))))
  | .jumpLeft => s.jump fun n => s.position - n
  | .jumpRight => s.jump fun n => s.position + n

namespace World

/-- What an operation reads on a machine whose current cell is `c`. -/
def situation (w : World) (c : Cell) : Situation where
  cell := c
  pointer := w.machine.pointer
  position := w.machine.position
  buffer := w.machine.buffer
  program := w.machine.program
  lines := w.lines

/-- The world after an operation. -/
def apply (w : World) (e : Effect) : World where
  machine := { w.machine with
    cells := match e.stored with
      | some c => (w.machine.put c).cells
      | none => w.machine.cells
    buffer := e.buffer
    target := match e.target with
      | some p => some p
      | none => w.machine.target }
  lines := e.lines
  trace := e.entries ++ w.trace

end World

open Exec

/-! ### The operations have their effects -/

/-- Carrying out `x` where there is a current cell is applying the effect `e`. -/
def Exec.Does (x : Exec Unit) (e : Situation → Effect) : Prop :=
  ∀ ⦃w : World⦄ ⦃c : Cell⦄, w.machine.cell = .ok c →
    x.on w = ((e (w.situation c)).result, w.apply (e (w.situation c)))

namespace Operation

/-- The ending of an operation: stores a cell if there is one, or ends in a fault. -/
def conclude : Except Fault (Option Cell) → Exec Unit
  | .ok (some d) => store d
  | .ok none => pure ()
  | .error f => throw f

theorem on_takeFirst (w : World) :
    takeFirst.on w = (.ok (w.machine.buffer.headD 0), { w with
      machine := { w.machine with buffer := w.machine.buffer.tail }
      trace := .note (Situation.takenNote w.machine.buffer) :: w.trace }) := by
  cases hb : w.machine.buffer with
  | nil =>
    simp only [takeFirst, on_bind, on_buffer, hb, resume_ok, on_note, on_pure, List.headD_nil,
      List.tail_nil, Situation.takenNote]
    rw [← hb]
  | cons b bs => simp [takeFirst, hb, Situation.takenNote]

theorem does_ending {x : Exec Unit} {v : Situation → Except Fault (Option Cell)}
    (hx : ∀ ⦃w : World⦄ ⦃c : Cell⦄, w.machine.cell = .ok c →
      x.on w = (conclude (v (w.situation c))).on w) :
    x.Does fun s => (s.keep []).ending (v s) := by
  intro w c h
  rw [hx h]
  simp only [Situation.keep, World.situation]
  rcases v _ with f | _ | d <;>
    simp [conclude, Effect.ending, Effect.result, World.apply,
      on_store, State.set_cells_eq_ok h]

theorem does_take {x : Exec Unit} {v : Situation → UInt8 → Except Fault (Option Cell)}
    (hx : ∀ ⦃w : World⦄ ⦃c : Cell⦄, w.machine.cell = .ok c →
      x.on w = resume (fun q => conclude (v (w.situation c) q)) (takeFirst.on w)) :
    x.Does fun s => s.take (v s) := by
  intro w c h
  rw [hx h, on_takeFirst, resume_ok]
  simp only [Situation.take, World.situation]
  rcases v _ _ with f | _ | d <;>
    simp [conclude, Situation.keep, Effect.ending, Effect.result, World.apply, on_store,
      State.set_cells_eq_ok h]

theorem does_read {ch : Channel} {nothing : Fault} {value : String → Except Fault Cell}
    {finish : String → Exec Unit} (hf : ∀ t, finish t = conclude ((value t).map some)) :
    Exec.Does (do
      match ← ask ch with
      | none => pure ()
      | some text =>
        note (.reading text)
        match text with
        | none => throw nothing
        | some t => finish t)
      fun s => s.read ch nothing value := by
  intro w c h
  simp only [ask, on_bind, on_get, resume_ok, Situation.read, World.situation, hf]
  rcases (w.lines.get ch).ask? with _ | ⟨reply, line⟩
  · simp [Situation.keep, World.apply, Effect.result]
  · cases reply with
    | text t =>
      cases hv : value t <;>
        simp [record, hv, conclude, Except.map, Effect.ending, Effect.result, World.apply,
          on_store, State.set_cells_eq_ok h]
    | nothing => simp [record, World.apply, Effect.result]
    | failure reason => simp [record, World.apply, Effect.result]

theorem writeDecimal_does : writeDecimal.Does Mode.consoleDecimalWrite.effect := by
  intro w c h
  cases hw : (w.lines.get .console).output <;>
    simp [writeDecimal, h, hw, Mode.effect, Situation.write, Line.refusal?, Writing.shown,
      World.situation, Situation.keep, World.apply, Effect.result]

theorem writeCharacter_does (ch : Channel) :
    (writeCharacter ch).Does fun s => s.write ch (characterOf s.cell) := by
  intro w c h
  cases hw : (w.lines.get ch).output with
  | false => simp [writeCharacter, h, hw, Situation.write, World.situation, Situation.keep,
      World.apply, Effect.result]
  | true =>
    cases hc : characterOf c with
    | error f => simp [writeCharacter, h, hw, hc, Situation.write, World.situation, Situation.keep,
        World.apply, Effect.result]
    | ok x =>
      cases hr : (w.lines.get ch).refusal? x <;>
        simp [writeCharacter, h, hw, hc, hr, Situation.write, World.situation, Situation.keep,
          World.apply, Effect.result]

theorem readNumber_does : readNumber.Does Mode.consoleDecimalRead.effect :=
  does_read fun t => by cases numberOf t <;> rfl

theorem readCharacter_does : readCharacter.Does Mode.consoleAsciiRead.effect :=
  does_read fun t => by cases codeOf t <;> rfl

theorem readDigitCharacter_does : readDigitCharacter.Does Mode.modemAsciiRead.effect := by
  refine does_read fun t => ?_
  cases codeOf t with
  | error f => rfl
  | ok n => cases Text.isDigits t.toList <;> rfl

theorem enqueue_does : enqueue.Does Situation.enqueue := by
  intro w c h
  cases c with
  | block bs =>
    simp [enqueue, h, Situation.enqueue, World.situation, Situation.keep, World.apply,
      Effect.result]
  | int i =>
    by_cases hi : 0 ≤ i ∧ i < 256 <;>
      simp [enqueue, h, hi, Situation.enqueue, World.situation, Situation.keep, World.apply,
        Effect.result]

theorem dequeueLast_does : dequeueLast.Does Situation.takeLast := by
  intro w c h
  cases hb : w.machine.buffer.getLast? <;>
    simp [dequeueLast, hb, Situation.takeLast, World.situation, Situation.keep, World.apply,
      Effect.result, on_store, State.set_cells_eq_ok h]

theorem dequeueFirst_does : dequeueFirst.Does Mode.dequeueFirst.effect :=
  does_take (v := fun _ b => .ok (some (.int b.toNat))) fun _ _ _ => by
    simp [dequeueFirst, conclude]

theorem shiftBelow_does (bound offset : Int) :
    (shiftBelow bound offset).Does fun s => (s.keep []).ending (s.shifted bound offset) := by
  refine does_ending (v := fun s => s.shifted bound offset) fun w c h => ?_
  cases c with
  | block bs =>
    simp [shiftBelow, h, Situation.shifted, Situation.ofNumber, World.situation, conclude]
  | int i =>
    by_cases hi : i < bound <;>
      simp [shiftBelow, h, hi, Situation.shifted, Situation.ofNumber, World.situation, conclude]

theorem toOperator_does : toOperator.Does Mode.toOperator.effect := by
  refine does_ending (v := Situation.operatorCode) fun w c h => ?_
  cases c with
  | block bs =>
    simp [toOperator, h, Situation.operatorCode, Situation.ofNumber, World.situation, conclude]
  | int i =>
    by_cases hi : i < 8 <;> cases hc : Index.get operatorCodes i <;>
      simp [toOperator, h, hi, hc, Situation.operatorCode, Situation.ofNumber, World.situation,
        conclude]

theorem add_does : add.Does Mode.add.effect := by
  refine does_take (v := fun s q => s.ofNumber .blockSum fun i =>
    .ok (some (.int (max (i + q.toNat) State.byteMax)))) fun w c h => ?_
  cases c <;> simp [add, h, Situation.ofNumber, World.situation, conclude]

theorem sub_does : sub.Does Mode.sub.effect := by
  refine does_take (v := fun s q => s.ofNumber .blockSum fun i =>
    .ok (some (.int (min (i + q.toNat) 0)))) fun w c h => ?_
  cases c <;> simp [sub, h, Situation.ofNumber, World.situation, conclude]

theorem mul_does : mul.Does Mode.mul.effect := by
  refine does_take (v := fun s q => s.ofNumber .blockProduct fun i =>
    .ok (some (.int (min (i * q.toNat) State.byteMax)))) fun w c h => ?_
  cases c <;> simp [mul, h, Situation.ofNumber, World.situation, conclude]

theorem div_does : div.Does Mode.div.effect := by
  refine does_take (v := Situation.quotient) fun w c h => ?_
  -- The cell is read again once the byte is taken.
  rw [State.cell_eq_ok_iff] at h
  simp only [div, on_bind, on_takeFirst, resume_ok]
  generalize w.machine.buffer.headD 0 = q
  by_cases hq : q = 0
  · simp [hq, Situation.quotient, conclude]
  · cases c with
    | block bs =>
      simp [hq, h, State.cell, Situation.quotient, Situation.ofNumber, World.situation, conclude]
    | int i =>
      cases hr : Rounding.divide? i q.toNat <;>
        simp [hq, h, hr, State.cell, Situation.quotient, Situation.ofNumber, World.situation,
          conclude]

theorem combine_does (op : Bitwise) : (combine op).Does fun s => s.take (s.combined op) := by
  refine does_take (v := fun s => s.combined op) fun w c h => ?_
  simp only [combine, on_bind, on_cell, h, on_takeFirst, resume_ok]
  generalize w.machine.buffer.headD 0 = q
  cases c with
  | block bs => simp [Situation.combined, Situation.ofNumber, World.situation, conclude]
  | int i =>
    cases hz : zeroBlock (bitwise op i q.toNat) <;>
      simp [hz, Except.map, Situation.combined, Situation.ofNumber, World.situation, conclude]

theorem negate_does : negate.Does Mode.not.effect := by
  refine does_ending (v := fun s => .ok (some (.int (if s.cell.isTrue then 0 else 1))))
    fun w c h => ?_
  simp only [negate, on_bind, on_cell, h, resume_ok, conclude, World.situation]
  rfl

theorem storePointer_does :
    Exec.Does (do store (.int (← state).pointer)) Mode.getPointer.effect :=
  does_ending (v := fun s => .ok (some (.int s.pointer))) fun _ _ _ => rfl

theorem storePosition_does :
    Exec.Does (do store (.int ((← state).position + 1))) Mode.getPosition.effect :=
  does_ending (v := fun s => .ok (some (.int (s.position + 1)))) fun _ _ _ => rfl

theorem on_jump (f : Int → Int → Int) {w : World} {c : Cell} (h : w.machine.cell = .ok c) :
    (do jumpTo (f (← state).position (← jumpLength)); return none : Exec (Option Frame)).on w =
      (((w.situation c).jump (f w.machine.position)).result.map fun _ => none,
        w.apply ((w.situation c).jump (f w.machine.position))) := by
  cases c <;>
    simp [jumpLength, h, Situation.jump, World.situation, Situation.keep, World.apply,
      Effect.result, Machine.size, Except.map]

end Operation

theorem Operation.on_takeText (w : World) :
    takeText.on w = match asciiText w.machine.buffer with
      | .ok t => (.ok t, { w with machine := { w.machine with buffer := [] } })
      | .error f => (.error f, w) := by
  simp only [takeText, on_bind, on_buffer, resume_ok, on_lift]
  cases asciiText w.machine.buffer <;> simp

theorem Task.perform_does (t : Task) : t.perform.Does t.effect := by
  intro w c _
  cases t with
  | config =>
    simp [Task.perform, Task.effect, World.situation, Situation.keep, World.apply, Effect.result]
  | scroller =>
    -- The three settings are taken byte by byte, and the buffer may run out at each.
    rcases hb : w.machine.buffer with _ | ⟨_, _ | ⟨_, _ | ⟨_, rest⟩⟩⟩
    · simp only [Task.perform, takeByte, on_bind, on_buffer, hb, resume_ok, on_throw, resume_error,
        Task.effect, World.situation, Situation.keep, World.apply, Effect.result]
      rw [← hb]
      rfl
    · simp [Task.perform, Task.effect, takeByte, hb, World.situation, Situation.keep, World.apply,
        Effect.result]
    · simp [Task.perform, Task.effect, takeByte, hb, World.situation, Situation.keep, World.apply,
        Effect.result]
    · cases ht : asciiText rest <;>
        simp [Task.perform, Task.effect, takeByte, hb, ht, World.situation, Situation.keep,
          World.apply, Effect.result]
  | autoDialTone =>
    cases ht : asciiText w.machine.buffer with
    | error f =>
      simp [Task.perform, Task.effect, on_takeText, ht, World.situation, Situation.keep,
        World.apply, Effect.result]
    | ok text =>
      cases hl : text.toList <;>
        simp [Task.perform, Task.effect, on_takeText, ht, hl, World.situation, Situation.keep,
          World.apply, Effect.result]
  | interpreter | toneGenerator | blinken | editor | commandLine | dialer =>
    cases ht : asciiText w.machine.buffer <;>
      simp [Task.perform, Task.effect, on_takeText, ht, World.situation, Situation.keep,
        World.apply, Effect.result]

/-- The operation of the mode leaves a frame itself. -/
def Mode.leavesFrame : Mode → Bool
  | .bufferProgram | .executeTask => true
  | _ => false

theorem Operation.on_executeTask {w : World} {c : Cell} (h : w.machine.cell = .ok c) :
    Operation.executeTask.on w =
      ((w.situation c).task.result.map fun _ => (w.apply (w.situation c).task).machine.frame,
        w.apply (w.situation c).task) := by
  cases ht : Task.ofCell? c with
  | none =>
    simp [Operation.executeTask, h, ht, Situation.task, World.situation, Situation.keep,
      World.apply, Effect.result, Except.map]
  | some t =>
    have hdo := t.perform_does (w := { w with trace := .note (.executing t) :: w.trace }) h
    simp only [Operation.executeTask, on_bind, on_cell, h, resume_ok, ht, on_note]
    rw [hdo]
    simp only [Situation.task, World.situation, ht, Effect.result]
    cases (t.effect _).fault <;> simp [World.apply, Except.map]

theorem Exec.Does.on_return {x : Exec Unit} {e : Situation → Effect} (hx : x.Does e) {w : World}
    {c : Cell} (h : w.machine.cell = .ok c) :
    (do x; return none : Exec (Option Frame)).on w =
      ((e (w.situation c)).result.map fun _ => none, w.apply (e (w.situation c))) := by
  rw [on_bind, hx h]
  cases (e (w.situation c)).result <;> rfl

/-- **Carrying out the operation of a mode is applying its effect.** -/
theorem Mode.on_perform (m : Mode) {w : World} {c : Cell} (h : w.machine.cell = .ok c) :
    m.perform.on w =
      ((m.effect (w.situation c)).result.map fun _ =>
          if m.leavesFrame then some (w.apply (m.effect (w.situation c))).machine.frame else none,
        w.apply (m.effect (w.situation c))) := by
  cases m with
  | consoleDecimalWrite => exact writeDecimal_does.on_return h
  | consoleDecimalRead => exact readNumber_does.on_return h
  | consoleAsciiWrite => exact (writeCharacter_does .console).on_return h
  | consoleAsciiRead => exact readCharacter_does.on_return h
  | modemAsciiWrite => exact (writeCharacter_does .modem).on_return h
  | modemAsciiRead => exact readDigitCharacter_does.on_return h
  | bufferProgram => rfl
  | executeTask =>
    simp only [Mode.perform, on_bind, Operation.on_executeTask h, Mode.effect, Mode.leavesFrame]
    cases (w.situation c).task.result <;> rfl
  | enqueue => exact enqueue_does.on_return h
  | dequeueLast => exact dequeueLast_does.on_return h
  | dequeueFirst => exact dequeueFirst_does.on_return h
  | clearBuffer => rfl
  | toLowerCase => exact (shiftBelow_does 26 97).on_return h
  | toUpperCase => exact (shiftBelow_does 26 65).on_return h
  | toDecimal => exact (shiftBelow_does 10 48).on_return h
  | toOperator => exact toOperator_does.on_return h
  | add => exact add_does.on_return h
  | sub => exact sub_does.on_return h
  | mul => exact mul_does.on_return h
  | div => exact div_does.on_return h
  | and => exact (combine_does .and).on_return h
  | or => exact (combine_does .or).on_return h
  | not => exact negate_does.on_return h
  | xor => exact (combine_does .xor).on_return h
  | getPointer => exact storePointer_does.on_return h
  | getPosition => exact storePosition_does.on_return h
  | jumpLeft => exact on_jump (· - ·) h
  | jumpRight => exact on_jump (· + ·) h

end TapeMachine
