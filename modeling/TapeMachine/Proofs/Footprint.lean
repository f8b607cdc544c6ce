import TapeMachine.Proofs.Course
import TapeMachine.Proofs.StepFault

/-!
# The footprint of a step

Which parts of the state a step may change is decided by its operator alone, and for `?` by the mode
whose operation is carried out (`Operator.operation?`; on a dead machine none is).
`State.Footprint` lists it part by part, and `World.attempts_footprint` says that every step that
works, from any state that can be reached, keeps to it and tells of at most one event.

The operation of a mode leaves in the buffer what `Mode.bufferAfter` says (`Mode.buffer_effect`); the
rest of a footprint is read off the operators one by one (`Operator.act_footprint`).
-/

namespace TapeMachine

open Exec

/-! ### The tape -/

/-- Replacing the current cell leaves the others alone. -/
theorem State.getElem?_put {s : State} (hp : 0 ≤ s.pointer) (c : Cell) {k : Nat}
    (hk : (k : Int) ≠ s.pointer) : (s.put c).cells[k]? = s.cells[k]? := by
  unfold put Index.set Index.resolve
  by_cases hlt : s.pointer < s.cells.length
  · rw [if_pos ⟨hp, hlt⟩]
    exact List.getElem?_set_ne (by omega)
  · rw [if_neg (by omega), if_neg (by omega)]
    cases Index.fits s.pointer <;> rfl

/-! ### The buffer -/

/-- What is queued of a cell that holds the number of a byte. -/
def Cell.byte : Cell → UInt8
  | .int i => UInt8.ofNat i.toNat
  | .block _ => 0

namespace Mode

/-- The operation combines the current cell with the oldest byte of the buffer. -/
def IsBinary (m : Mode) : Prop := 16 ≤ m.code ∧ m.code ≤ 21 ∨ m.code = 23

/-- The operation is one of those that may change the buffer. -/
def UsesBuffer (m : Mode) : Prop := 6 ≤ m.code ∧ m.code ≤ 11 ∨ m.IsBinary

instance : DecidablePred IsBinary := fun m =>
  inferInstanceAs (Decidable (16 ≤ m.code ∧ m.code ≤ 21 ∨ m.code = 23))

instance : DecidablePred UsesBuffer := fun m =>
  inferInstanceAs (Decidable (6 ≤ m.code ∧ m.code ≤ 11 ∨ m.IsBinary))

/-- The buffer after the operation of a mode that does not end in a fault. -/
def bufferAfter (m : Mode) (s : Situation) : List UInt8 :=
  match m with
  | .bufferProgram => (String.ofList s.program).toUTF8.data.toList
  | .executeTask | .clearBuffer => []
  | .enqueue => s.buffer ++ [s.cell.byte]
  | .dequeueLast => s.buffer.dropLast
  | .dequeueFirst | .add | .sub | .mul | .div | .and | .or | .xor => s.buffer.tail
  | _ => s.buffer

theorem bufferAfter_of_isBinary {m : Mode} (h : m.IsBinary) (s : Situation) :
    m.bufferAfter s = s.buffer.tail := by
  cases m with
  | add | sub | mul | div | and | or | xor => rfl
  | _ => exact absurd h (by decide)

theorem bufferAfter_of_not_usesBuffer {m : Mode} (h : ¬ m.UsesBuffer) (s : Situation) :
    m.bufferAfter s = s.buffer := by
  cases m with
  | bufferProgram | executeTask | enqueue | dequeueLast | dequeueFirst | clearBuffer | add | sub
  | mul | div | and | or | xor => exact absurd (by decide) h
  | _ => rfl

end Mode

theorem Effect.buffer_ending (e : Effect) (r : Except Fault (Option Cell)) :
    (e.ending r).buffer = e.buffer := by
  cases r <;> rfl

namespace Situation

variable (s : Situation)

theorem buffer_write (ch : Channel) (x : Except Fault Writing) :
    (s.write ch x).buffer = s.buffer := by
  unfold write
  (repeat' split) <;> rfl

theorem buffer_read (ch : Channel) (nothing : Fault) (value : String → Except Fault Cell) :
    (s.read ch nothing value).buffer = s.buffer := by
  unfold read
  split
  · rfl
  · split
    · exact Effect.buffer_ending _ _
    · rfl
    · rfl

theorem buffer_takeLast : s.takeLast.buffer = s.buffer.dropLast := by
  unfold takeLast
  split
  · rfl
  · rename_i h
    rw [List.getLast?_eq_none_iff.1 h]
    exact List.getLast?_eq_none_iff.1 h

theorem buffer_jump (landing : Int → Int) : (s.jump landing).buffer = s.buffer := by
  unfold jump
  split <;> rfl

variable {s}

theorem buffer_enqueue (h : s.enqueue.fault = none) :
    s.enqueue.buffer = s.buffer ++ [s.cell.byte] := by
  unfold enqueue at h ⊢
  split at h
  · cases h
  · rename_i i hi
    split at h
    · rename_i hbyte
      simp only [hi, if_pos hbyte, Cell.byte]
    · cases h

/-- A task that does not end in a fault leaves an empty buffer. -/
theorem buffer_task (h : s.task.fault = none) : s.task.buffer = [] := by
  unfold task at h ⊢
  split at h
  · cases h
  · rename_i t _
    cases t with
    | config => cases h
    | scroller =>
      simp only [Task.effect] at h ⊢
      split at h
      · split at h
        · rfl
        · cases h
      · cases h
    | autoDialTone =>
      simp only [Task.effect] at h ⊢
      split at h
      · split at h
        · cases h
        · rfl
      · cases h
    | blinken =>
      simp only [Task.effect] at h
      split at h <;> cases h
    | interpreter | toneGenerator | editor | commandLine | dialer =>
      simp only [Task.effect] at h ⊢
      split at h
      · rfl
      · cases h

end Situation

/-- **What the operation of a mode leaves in the buffer.** -/
theorem Mode.buffer_effect {m : Mode} {s : Situation} (h : (m.effect s).fault = none) :
    (m.effect s).buffer = m.bufferAfter s := by
  cases m with
  | consoleDecimalWrite | consoleAsciiWrite | modemAsciiWrite => exact s.buffer_write _ _
  | consoleDecimalRead | consoleAsciiRead | modemAsciiRead => exact s.buffer_read _ _ _
  | bufferProgram | clearBuffer => rfl
  | executeTask => exact Situation.buffer_task h
  | enqueue => exact Situation.buffer_enqueue h
  | dequeueLast => exact s.buffer_takeLast
  | jumpLeft | jumpRight => exact s.buffer_jump _
  | _ => exact Effect.buffer_ending _ _

/-! ### The footprint -/

namespace Operator

/-- The mode whose operation the operator carries out, if it carries out any: only `?` does, and only
on a machine that is not dead. -/
def operation? (o : Operator) (s : State) : Option Mode :=
  if o = .operate ∧ s.isDead = false then Mode.ofCell? s.mode else none

theorem operation?_of_dead {s : State} (o : Operator) (hd : s.isDead = true) :
    o.operation? s = none :=
  if_neg fun h => Bool.false_ne_true (h.2.symm.trans hd)

/-- A step that evaluates the operator carries out the operator's operation. -/
theorem operation?_eq_machine {m : Machine} {o : Operator} {c : Cell}
    (hi : m.instruction = .ok o.symbol) (hc : m.cell = .ok c) :
    m.operation? = o.operation? m.toState := by
  unfold Machine.operation? operation?
  refine if_congr ?_ rfl rfl
  rw [hi, hc, Except.toOption, Option.some.injEq, symbol_inj]
  exact ⟨fun h => ⟨h.2.1, h.1⟩, fun h => ⟨h.2, h.1, rfl⟩⟩

end Operator

/-- What the operator `o` may change, in a step that leads from the state `s` to `t`. -/
structure State.Footprint (o : Operator) (s t : State) : Prop where
  /-- The tape keeps its length. -/
  length_cells : t.cells.length = s.cells.length
  /-- At most the current cell changes, -/
  cells_elsewhere : ∀ k : Nat, (k : Int) ≠ s.pointer → t.cells[k]? = s.cells[k]?
  /-- and it does so when it is counted up or down, or by an operation. -/
  cells_changed : t.cells = s.cells ∨ o = .increment ∨ o = .decrement ∨
    (o.operation? s).isSome = true
  /-- The pointer is moved by one cell, by the two operators that move it. -/
  pointer_changed : t.pointer = s.pointer ∨ o = .advance ∧ t.pointer = s.pointer + 1 ∨
    o = .retreat ∧ t.pointer = s.pointer - 1
  /-- The mode is taken from the current cell. -/
  mode_changed : t.mode = s.mode ∨ o = .setMode ∧ s.cell = .ok t.mode
  /-- An opening bracket adds its position to the open loops. -/
  loops_opened : o = .beginLoop → t.loops = s.position :: s.loops
  /-- A closing bracket takes the innermost loop away. -/
  loops_closed : o = .endLoop → ∃ p, s.loops = p :: t.loops
  /-- No other operator changes the open loops. -/
  loops_kept : o.isBracket = false → t.loops = s.loops
  /-- Skipped loops are counted by the brackets. -/
  dead_changed : t.deadDepth = s.deadDepth ∨ o = .beginLoop ∧ t.deadDepth = s.deadDepth + 1 ∨
    o = .endLoop ∧ t.deadDepth = s.deadDepth - 1
  /-- The buffer is changed by the operations that use it. -/
  buffer_changed : t.buffer = s.buffer ∨ ∃ m, o.operation? s = some m ∧ m.UsesBuffer
  /-- Binary operations take its oldest byte. -/
  buffer_taken : ∀ m, o.operation? s = some m → m.IsBinary → t.buffer = s.buffer.tail
  /-- Queueing adds one byte at its end. -/
  buffer_queued : o.operation? s = some .enqueue → ∃ b, t.buffer = s.buffer ++ [b]

namespace State.Footprint

variable {o : Operator} {s : State}

/-- Where nothing changes. -/
theorem of_idle (hb : o.isBracket = false) (ho : o.operation? s = none) : s.Footprint o s where
  length_cells := rfl
  cells_elsewhere := fun _ _ => rfl
  cells_changed := .inl rfl
  pointer_changed := .inl rfl
  mode_changed := .inl rfl
  loops_opened := by rintro rfl; cases hb
  loops_closed := by rintro rfl; cases hb
  loops_kept := fun _ => rfl
  dead_changed := .inl rfl
  buffer_changed := .inl rfl
  buffer_taken := by intro m hm; rw [ho] at hm; cases hm
  buffer_queued := by intro hm; rw [ho] at hm; cases hm

/-- Where a loop is opened. -/
theorem of_open {d : Int} (hd : d = s.deadDepth ∨ d = s.deadDepth + 1) :
    s.Footprint .beginLoop { s with loops := s.position :: s.loops, deadDepth := d } where
  length_cells := rfl
  cells_elsewhere := fun _ _ => rfl
  cells_changed := .inl rfl
  pointer_changed := .inl rfl
  mode_changed := .inl rfl
  loops_opened := fun _ => rfl
  loops_closed := nofun
  loops_kept := nofun
  dead_changed := hd.imp_right fun h => .inl ⟨rfl, h⟩
  buffer_changed := .inl rfl
  buffer_taken := nofun
  buffer_queued := nofun

/-- Where a loop is closed. -/
theorem of_close {d p : Int} {ps : List Int} {target : Option Int} (hl : s.loops = p :: ps)
    (hd : d = s.deadDepth ∨ d = s.deadDepth - 1) :
    s.Footprint .endLoop { s with loops := ps, deadDepth := d, target } where
  length_cells := rfl
  cells_elsewhere := fun _ _ => rfl
  cells_changed := .inl rfl
  pointer_changed := .inl rfl
  mode_changed := .inl rfl
  loops_opened := nofun
  loops_closed := fun _ => ⟨p, hl⟩
  loops_kept := nofun
  dead_changed := hd.imp_right fun h => .inr ⟨rfl, h⟩
  buffer_changed := .inl rfl
  buffer_taken := nofun
  buffer_queued := nofun

/-- Where the current cell is counted up or down. -/
theorem of_count (ho : o = .increment ∨ o = .decrement) (hp : 0 ≤ s.pointer) (c : Cell) :
    s.Footprint o { s with cells := (s.put c).cells } :=
  have hidle : s.Footprint o s := by
    obtain rfl | rfl := ho <;> exact of_idle rfl rfl
  { hidle with
    length_cells := s.length_put c
    cells_elsewhere := fun _ hk => getElem?_put hp c hk
    cells_changed := .inr (ho.imp_right .inl) }

/-- Where an operation is carried out. -/
theorem of_operation {w : World} {c : Cell} {m : Mode}
    (ho : Operator.operate.operation? w.machine.toState = some m)
    (hf : (m.effect (w.situation c)).fault = none) (hp : 0 ≤ w.machine.pointer) :
    w.machine.Footprint .operate (w.apply (m.effect (w.situation c))).machine.toState where
  length_cells := by
    simp only [World.apply]
    split
    · exact length_put _ _
    · rfl
  cells_elsewhere := by
    intro k hk
    simp only [World.apply]
    split
    · exact getElem?_put hp _ hk
    · rfl
  cells_changed := .inr (.inr (.inr (by rw [ho]; rfl)))
  pointer_changed := .inl rfl
  mode_changed := .inl rfl
  loops_opened := nofun
  loops_closed := nofun
  loops_kept := fun _ => rfl
  dead_changed := .inl rfl
  buffer_changed := by
    by_cases hm : m.UsesBuffer
    · exact .inr ⟨m, ho, hm⟩
    · exact .inl ((Mode.buffer_effect hf).trans (Mode.bufferAfter_of_not_usesBuffer hm _))
  buffer_taken := by
    intro x hx hbinary
    obtain rfl : m = x := Option.some.inj (ho.symm.trans hx)
    exact (Mode.buffer_effect hf).trans (Mode.bufferAfter_of_isBinary hbinary _)
  buffer_queued := by
    intro hx
    obtain rfl : m = .enqueue := Option.some.inj (ho.symm.trans hx)
    exact ⟨_, Mode.buffer_effect hf⟩

end State.Footprint

namespace Operator

variable {o : Operator} {w v : World} {c : Cell} {why : Option Idle}

theorem skip_footprint (hd : w.machine.isDead = true) (ha : o.skip w = (.ok why, v)) :
    w.machine.Footprint o v.machine.toState := by
  cases o with
  | beginLoop =>
    cases ha
    exact .of_open (.inr rfl)
  | endLoop =>
    simp only [skip] at ha
    split at ha <;> cases ha
    rename_i hl
    exact .of_close hl (.inr rfl)
  | advance | retreat | increment | decrement | setMode | operate =>
    cases ha
    exact .of_idle rfl (operation?_of_dead _ hd)

theorem work_footprint (hp : 0 ≤ w.machine.pointer) (hd : w.machine.isDead = false)
    (hc : w.machine.cell = .ok c) (ha : o.work w c = (.ok why, v)) :
    w.machine.Footprint o v.machine.toState := by
  cases o with
  | advance =>
    have hidle : w.machine.Footprint .advance w.machine.toState := .of_idle rfl rfl
    simp only [work] at ha
    split at ha <;> cases ha
    · exact hidle
    · exact { hidle with pointer_changed := .inr (.inl ⟨rfl, rfl⟩) }
  | retreat =>
    have hidle : w.machine.Footprint .retreat w.machine.toState := .of_idle rfl rfl
    simp only [work] at ha
    split at ha <;> cases ha
    · exact hidle
    · exact { hidle with pointer_changed := .inr (.inr ⟨rfl, rfl⟩) }
  | increment =>
    simp only [work] at ha
    split at ha
    · cases ha
    · split at ha <;> cases ha
      · exact .of_idle rfl rfl
      · exact .of_count (.inl rfl) hp _
  | decrement =>
    simp only [work] at ha
    split at ha
    · cases ha
    · split at ha <;> cases ha
      · exact .of_idle rfl rfl
      · exact .of_count (.inr rfl) hp _
  | beginLoop =>
    simp only [work] at ha
    split at ha <;> cases ha
    · exact .of_open (.inr rfl)
    · exact .of_open (.inl rfl)
  | endLoop =>
    simp only [work] at ha
    split at ha <;> cases ha
    rename_i hl
    exact .of_close hl (.inl rfl)
  | setMode =>
    have hidle : w.machine.Footprint .setMode w.machine.toState := .of_idle rfl rfl
    cases ha
    exact { hidle with mode_changed := .inr ⟨rfl, hc⟩ }
  | operate =>
    simp only [work] at ha
    split at ha
    · cases ha
    · rename_i m hm
      obtain ⟨hresult, rfl⟩ := Prod.ext_iff.1 ha
      have hf : (m.effect (w.situation c)).fault = none := by
        unfold Effect.result at hresult
        split at hresult
        · cases hresult
        · assumption
      exact .of_operation (w := w.noted (.operating m)) ((if_pos ⟨rfl, hd⟩).trans hm) hf hp

/-- **What an operator changes.** -/
theorem act_footprint (hp : 0 ≤ w.machine.pointer) (hc : w.machine.cell = .ok c)
    (ha : o.act w c = (.ok why, v)) : w.machine.Footprint o v.machine.toState := by
  by_cases hd : w.machine.isDead = true
  · rw [act_of_dead hd] at ha
    exact skip_footprint hd ha
  · rw [act_of_live (Bool.eq_false_iff.2 hd)] at ha
    exact work_footprint hp (Bool.eq_false_iff.2 hd) hc ha

end Operator

/-! ### Events -/

namespace Situation

variable (s : Situation)

theorem length_events_write (ch : Channel) (x : Except Fault Writing) :
    ((s.write ch x).entries.filterMap Entry.event?).length ≤ 1 := by
  unfold write
  split
  · split
    · split
      · exact Nat.le_refl 1
      · exact Nat.zero_le 1
    · exact Nat.zero_le 1
  · exact Nat.zero_le 1

theorem length_events_read (ch : Channel) (nothing : Fault) (value : String → Except Fault Cell) :
    ((s.read ch nothing value).entries.filterMap Entry.event?).length ≤ 1 := by
  unfold read
  split
  · exact Nat.zero_le 1
  · rename_i reply _ _
    cases reply with
    | text t =>
      rw [Effect.entries_ending]
      exact Nat.le_refl 1
    | nothing => exact Nat.le_refl 1
    | failure reason => exact Nat.le_refl 1

end Situation

namespace Mode

/-- The operations that read or write are the first six. -/
theorem code_le_of_talks {m : Mode} {ch : Channel}
    (h : m.speaksOn? = some ch ∨ m.listensTo? = some ch) : m.code ≤ 5 := by
  cases m with
  | consoleDecimalWrite | consoleDecimalRead | consoleAsciiWrite | consoleAsciiRead
  | modemAsciiWrite | modemAsciiRead => decide
  | _ => obtain h | h := h <;> cases h

theorem code_le_of_mem_entries {m : Mode} {s : Situation} {x : Event}
    (h : Entry.event x ∈ (m.effect s).entries) : m.code ≤ 5 := by
  have hmay := may_of_mem_entries h
  cases x with
  | wrote ch text => exact code_le_of_talks (.inl hmay)
  | read ch reply => exact code_le_of_talks (.inr hmay)

/-- The operation of a mode tells of one event at most. -/
theorem length_events_effect (m : Mode) (s : Situation) :
    ((m.effect s).entries.filterMap Entry.event?).length ≤ 1 := by
  cases m with
  | consoleDecimalWrite | consoleAsciiWrite | modemAsciiWrite => exact s.length_events_write _ _
  | consoleDecimalRead | consoleAsciiRead | modemAsciiRead => exact s.length_events_read _ _ _
  | _ =>
    -- The other operations tell of none.
    rw [List.filterMap_eq_nil_iff.2]
    · exact Nat.zero_le 1
    · intro e he
      cases e with
      | note n => rfl
      | event x => exact absurd (code_le_of_mem_entries he) (by decide)

end Mode

namespace World

variable {w v : World}

/-- Where something happens, an operation that reads or writes is carried out. -/
theorem exists_of_happenings_ne_nil (h : w.happenings ≠ []) :
    ∃ m, w.machine.operation? = some m ∧ m.code ≤ 5 := by
  obtain ⟨x, hx⟩ := List.exists_mem_of_ne_nil _ h
  obtain ⟨e, he, hevent⟩ := List.mem_filterMap.1 hx
  have hmay := may_of_mem_entries (List.mem_reverse.1 he)
  cases e with
  | note n => cases hevent
  | event y =>
    cases y with
    | wrote ch text =>
      obtain ⟨m, hm, hspeaks⟩ := Option.bind_eq_some_iff.1 hmay
      exact ⟨m, hm, Mode.code_le_of_talks (.inl hspeaks)⟩
    | read ch reply =>
      obtain ⟨m, hm, hlistens⟩ := Option.bind_eq_some_iff.1 hmay
      exact ⟨m, hm, Mode.code_le_of_talks (.inr hlistens)⟩

/-- At most one event happens in a step. -/
theorem length_happenings_le (w : World) : w.happenings.length ≤ 1 := by
  by_cases h : w.happenings = []
  · rw [h]
    exact Nat.zero_le 1
  · obtain ⟨m, hm, -⟩ := exists_of_happenings_ne_nil h
    obtain ⟨c, -, hhap⟩ := happenings_of_operation? hm
    rw [hhap, List.filterMap_reverse, List.length_reverse]
    exact m.length_events_effect _

/-- A step that works keeps to the footprint of its operator. -/
theorem footprint_of_next (hp : 0 ≤ w.machine.pointer) (h : w.Next v) :
    ∃ (o : Operator) (c : Cell), w.machine.instruction = .ok o.symbol ∧ w.machine.cell = .ok c ∧
      w.machine.Footprint o v.machine.toState := by
  obtain ⟨o, c, why, u, hi, hc, ha, rfl⟩ := advance_eq_ok_iff.1 h
  have hact := Operator.act_footprint (w := w.started o c) hp hc ha
  obtain ⟨p, t, hmove⟩ := exists_moveOn_eq u.machine.toState
  refine ⟨o, c, hi, hc, ?_⟩
  change w.machine.Footprint o (moveOn u.machine.toState)
  rw [hmove]
  exact { hact with }

/-- **The footprint of a step.**  After any number of attempts at a step of any program, a step that
works evaluates one operator and keeps to its footprint: each part of the state changes only by the
operators that `State.Footprint` lists for it, and as it says there.  At most one event happens, and
only in an operation that reads or writes. -/
theorem attempts_footprint (lines : Lines) (program : String) (n : Nat) :
    let w := ((load lines program).attempts n).2
    ∀ v, advance.on w = (.ok (), v) → ∃ o : Operator, w.machine.instruction = .ok o.symbol ∧
      w.machine.Footprint o v.machine.toState ∧
      ∃ events, v.events = w.events ++ events ∧ events.length ≤ 1 ∧
        (events ≠ [] → ∃ m, o.operation? w.machine.toState = some m ∧ m.code ≤ 5) := by
  intro w v h
  have hs : w.machine.Sound program.toList := (consistent_attempts lines program n).sound
  obtain ⟨o, c, hi, hc, hfoot⟩ := footprint_of_next hs.pointer_nonneg h
  have hevents := w.events_step
  rw [← on_advance, h] at hevents
  refine ⟨o, hi, hfoot, w.happenings, hevents, w.length_happenings_le, fun hne => ?_⟩
  rw [← Operator.operation?_eq_machine hi hc]
  exact exists_of_happenings_ne_nil hne

/-- The cell that was counted up to eight is queued: one byte is added to the buffer, and the mode,
the open loops and the events stay as they are. -/
theorem attempts_footprint_queued :
    ∃ w v b, w = ((load {} "++++++++=?").attempts 9).2 ∧ advance.on w = (.ok (), v) ∧
      v.machine.buffer = w.machine.buffer ++ [b] ∧ v.machine.mode = w.machine.mode ∧
      v.machine.loops = w.machine.loops ∧ v.events = w.events := by
  obtain ⟨w, hw⟩ : ∃ w, w = ((load {} "++++++++=?").attempts 9).2 := ⟨_, rfl⟩
  have hok : (advance.on w).1.isOk = true := by rw [hw]; decide +kernel
  have hinstruction : w.machine.instruction = .ok Operator.operate.symbol := by
    rw [hw]
    decide +kernel
  have hmode : Operator.operate.operation? w.machine.toState = some .enqueue := by
    rw [hw]
    decide +kernel
  have hfootprint := attempts_footprint {} "++++++++=?" 9
  rw [← hw] at hfootprint
  rcases hv : advance.on w with ⟨f | ⟨⟩, v⟩
  · rw [hv] at hok
    cases hok
  · obtain ⟨o, hi, hfoot, events, hevents, -, htalks⟩ := hfootprint v hv
    obtain rfl : o = .operate := Operator.symbol_inj.1 (Except.ok.inj (hi.symm.trans hinstruction))
    obtain ⟨b, hb⟩ := hfoot.buffer_queued hmode
    have hsilent : events = [] := by
      refine Decidable.byContradiction fun hne => ?_
      obtain ⟨m, hm, hcode⟩ := htalks hne
      obtain rfl : m = .enqueue := Option.some.inj (hm.symm.trans hmode)
      exact absurd hcode (by decide)
    rw [hsilent, List.append_nil] at hevents
    refine ⟨w, v, b, hw, hv, hb, hfoot.mode_changed.resolve_right ?_, hfoot.loops_kept rfl, hevents⟩
    rintro ⟨hset, -⟩
    cases hset

end World

end TapeMachine
