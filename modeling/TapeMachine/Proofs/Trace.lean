import TapeMachine.Proofs.Step

/-!
# What a step adds to the trace

A step looks at the machine and the lines, never at the trace: it only puts entries in front of it.
`World.entries` gives these entries as a function of the machine and the lines, and
`World.step_withTrace` says that a step on any other trace is the same step with the same entries in
front.  So a fact about the trace of a run is a fact about the entries of its steps.

An operator adds nothing, or one note, or what the operation of its mode adds
(`Operator.entries`).  A step tells of a read or a write only where the operation of its mode reads
or writes, and it never notes an error (`World.may_of_mem_entries`).
-/

namespace TapeMachine

open Exec

/-- The world with its trace replaced. -/
def World.withTrace (w : World) (t : List Entry) : World := { w with trace := t }

@[simp] theorem World.machine_withTrace (w : World) (t : List Entry) :
    (w.withTrace t).machine = w.machine := rfl

namespace Operator

/-- What an operator adds to the trace where the current cell is `c`, the latest first. -/
def entries (o : Operator) (w : World) (c : Cell) : List Entry :=
  let s := w.machine.toState
  match o with
  | .beginLoop => [.note (.loopBegun s.position)]
  | .endLoop => if s.loops.isEmpty then [.note (.warned (.unmatchedClose s.position))] else []
  | .operate =>
    if s.isDead then []
    else match Mode.ofCell? s.mode with
      | none => [.note (.warned (.unknownMode s.mode s.position))]
      | some m => (m.effect (w.situation c)).entries ++ [.note (.operating m)]
  | _ => []

variable (o : Operator) (w : World) (c : Cell) (t : List Entry)

theorem skip_withTrace (hd : w.machine.isDead = true) :
    o.skip (w.withTrace t) = ((o.skip w).1, (o.skip w).2.withTrace (o.entries w c ++ t)) := by
  cases o with
  | endLoop =>
    simp only [skip, entries, World.machine_withTrace]
    cases w.machine.loops <;> rfl
  | operate =>
    simp only [skip, entries, hd]
    rfl
  | _ => rfl

theorem work_withTrace (hd : w.machine.isDead = false) :
    o.work (w.withTrace t) c =
      ((o.work w c).1, (o.work w c).2.withTrace (o.entries w c ++ t)) := by
  cases o with
  | setMode => rfl
  | advance =>
    by_cases hp : w.machine.pointer = w.machine.cells.length <;>
      simp only [work, World.machine_withTrace, hp, ↓reduceIte] <;> rfl
  | retreat =>
    by_cases hp : w.machine.pointer = 0 <;>
      simp only [work, World.machine_withTrace, hp, ↓reduceIte] <;> rfl
  | increment =>
    cases c with
    | block bs => rfl
    | int i => by_cases hi : i = State.byteMax <;> simp only [work, hi, ↓reduceIte] <;> rfl
  | decrement =>
    cases c with
    | block bs => rfl
    | int i => by_cases hi : i = 0 <;> simp only [work, hi, ↓reduceIte] <;> rfl
  | beginLoop =>
    by_cases hc : c = Cell.zero <;> simp only [work, hc, ↓reduceIte] <;> rfl
  | endLoop =>
    simp only [work, entries, World.machine_withTrace]
    cases w.machine.loops <;> rfl
  | operate =>
    simp only [work, entries, World.machine_withTrace, hd]
    cases Mode.ofCell? w.machine.mode with
    | none => rfl
    | some m =>
      have hs : (w.withTrace t).situation c = w.situation c := rfl
      simp only [hs]
      refine Prod.ext rfl ?_
      simp [World.apply, World.noted, World.withTrace]

theorem act_withTrace :
    o.act (w.withTrace t) c = ((o.act w c).1, (o.act w c).2.withTrace (o.entries w c ++ t)) := by
  by_cases hd : w.machine.isDead = true
  · rw [act_of_dead hd, act_of_dead (w := w.withTrace t) hd]
    exact o.skip_withTrace w c t hd
  · have hlive : w.machine.isDead = false := Bool.eq_false_iff.2 hd
    rw [act_of_live hlive, act_of_live (w := w.withTrace t) hlive]
    exact o.work_withTrace w c t hlive

end Operator

namespace World

/-- What a step adds to the trace, the latest first. -/
def entries (w : World) : List Entry :=
  match w.machine.instruction with
  | .error _ => []
  | .ok ch =>
    match Operator.ofSymbol? ch, w.machine.cell with
    | some o, .ok c =>
      let acted := o.entries (w.started o c) c ++
        [.note (.evaluating o c w.machine.buffer.length w.machine.position),
          .note (.fetched (String.singleton ch))]
      if (o.act (w.started o c) c).1.isOk then
        .note (.evaluated (o.leavesFrame w.machine.toState)) :: acted
      else acted
    | _, _ => [.note (.fetched (String.singleton ch))]

theorem started_withTrace (w : World) (o : Operator) (c : Cell) (t : List Entry) :
    (w.withTrace t).started o c = (w.started o c).withTrace
      (.note (.evaluating o c w.machine.buffer.length w.machine.position) ::
        .note (.fetched (String.singleton o.symbol)) :: t) := rfl

/-- **A step only adds to the trace.**  On any other trace it gives the same result and leaves the
same machine and lines, with its entries in front of that trace. -/
theorem step_withTrace (w : World) (t : List Entry) :
    (w.withTrace t).step = (w.step.1, w.step.2.withTrace (w.entries ++ t)) := by
  unfold step entries
  rw [machine_withTrace]
  cases hi : w.machine.instruction with
  | error f => rfl
  | ok ch =>
    cases ho : Operator.ofSymbol? ch with
    | none =>
      simp only [ho]
      rfl
    | some o =>
      cases hc : w.machine.cell with
      | error f =>
        simp only [ho]
        rfl
      | ok c =>
        obtain rfl := Operator.symbol_of_ofSymbol? ho
        simp only [started_withTrace, Operator.act_withTrace]
        rcases ha : o.act (w.started o c) c with ⟨f | why, v⟩
        · simp [ha, withTrace]
        · simp [ha, withTrace, completed, framed, withState, noted]

theorem trace_step (w : World) : w.step.2.trace = w.entries ++ w.trace := by
  have h := w.step_withTrace w.trace
  exact congrArg (fun r => r.2.trace) h

end World

/-! ### What the entries tell of -/

namespace Mode

/-- The channel that the operation of a mode reads. -/
def listensTo? : Mode → Option Channel
  | .consoleDecimalRead | .consoleAsciiRead => some .console
  | .modemAsciiRead => some .modem
  | _ => none

/-- The channel that the operation of a mode writes on. -/
def speaksOn? : Mode → Option Channel
  | .consoleDecimalWrite | .consoleAsciiWrite => some .console
  | .modemAsciiWrite => some .modem
  | _ => none

end Mode

namespace Entry

/-- A step that carries out the operation of the given mode, if of any, may add the entry. -/
def May (operation : Option Mode) : Entry → Prop
  | .note n => n.level ≠ .error
  | .event (.wrote ch _) => operation.bind Mode.speaksOn? = some ch
  | .event (.read ch _) => operation.bind Mode.listensTo? = some ch

variable {operation : Option Mode} {e : Entry}

theorem may_of_eq_note {n : Note} (he : e = .note n) (hn : n.level ≠ .error) :
    e.May operation := by
  rw [he]
  exact hn

end Entry

namespace Situation

variable {s : Situation} {e : Entry}

theorem mem_entries_write {ch : Channel} {x : Except Fault Writing}
    (h : e ∈ (s.write ch x).entries) :
    (∃ t, e = .event (.wrote ch t)) ∨ ∃ t, e = .note (.writing t) := by
  unfold write at h
  split at h
  · split at h
    · split at h
      · obtain rfl | h := List.mem_cons.1 h
        · exact .inl ⟨_, rfl⟩
        · exact .inr ⟨_, List.mem_singleton.1 h⟩
      · exact .inr ⟨_, List.mem_singleton.1 h⟩
    · cases h
  · cases h

theorem mem_entries_read {ch : Channel} {nothing : Fault} {value : String → Except Fault Cell}
    (h : e ∈ (s.read ch nothing value).entries) :
    (∃ r, e = .event (.read ch r)) ∨ ∃ t, e = .note (.reading t) := by
  unfold read at h
  split at h
  · cases h
  · rename_i reply line _
    cases reply with
    | text t =>
      simp only [Effect.entries_ending, List.mem_cons, List.not_mem_nil, or_false] at h
      obtain rfl | rfl := h
      · exact .inr ⟨_, rfl⟩
      · exact .inl ⟨_, rfl⟩
    | nothing =>
      simp only [List.mem_cons, List.not_mem_nil, or_false] at h
      obtain rfl | rfl := h
      · exact .inr ⟨_, rfl⟩
      · exact .inl ⟨_, rfl⟩
    | failure reason => exact .inl ⟨_, List.mem_singleton.1 h⟩

theorem mem_entries_take {value : UInt8 → Except Fault (Option Cell)}
    (h : e ∈ (s.take value).entries) : e = .note (takenNote s.buffer) := by
  rw [take, Effect.entries_ending] at h
  exact List.mem_singleton.1 h

theorem mem_entries_takeLast (h : e ∈ s.takeLast.entries) :
    e = .note .nothingQueued ∨ ∃ b, e = .note (.dequeued b) := by
  unfold takeLast at h
  split at h
  · exact .inr ⟨_, List.mem_singleton.1 h⟩
  · exact .inl (List.mem_singleton.1 h)

theorem mem_entries_enqueue (h : e ∈ s.enqueue.entries) : e = .note (.storing s.cell) := by
  unfold enqueue at h
  split at h
  · exact List.mem_singleton.1 h
  · split at h <;> exact List.mem_singleton.1 h

theorem entries_jump (landing : Int → Int) : (s.jump landing).entries = [] := by
  unfold jump
  split <;> rfl

end Situation

theorem Task.mem_entries_effect {t : Task} {s : Situation} {e : Entry}
    (h : e ∈ (t.effect s).entries) : ∃ args, e = .note (.announced t args) := by
  cases t with
  | config => cases h
  | scroller =>
    simp only [effect] at h
    split at h
    · split at h
      · exact ⟨_, List.mem_singleton.1 h⟩
      · cases h
    · cases h
  | autoDialTone =>
    simp only [effect] at h
    split at h
    · split at h
      · cases h
      · exact ⟨_, List.mem_singleton.1 h⟩
    · cases h
  | blinken =>
    simp only [effect] at h
    split at h <;> cases h
  | interpreter | toneGenerator | editor | commandLine | dialer =>
    simp only [effect] at h
    split at h
    · exact ⟨_, List.mem_singleton.1 h⟩
    · cases h

theorem Situation.mem_entries_task {s : Situation} {e : Entry} (h : e ∈ s.task.entries) :
    ∃ n : Note, e = .note n ∧ n.level ≠ .error := by
  unfold task at h
  split at h
  · exact ⟨_, List.mem_singleton.1 h, nofun⟩
  · rcases List.mem_append.1 h with h | h
    · obtain ⟨args, he⟩ := Task.mem_entries_effect h
      exact ⟨_, he, nofun⟩
    · exact ⟨_, List.mem_singleton.1 h, nofun⟩

open Situation

/-- What the operation of a mode adds to the trace. -/
theorem Mode.may_of_mem_entries {m : Mode} {s : Situation} {e : Entry}
    (h : e ∈ (m.effect s).entries) : e.May (some m) := by
  cases m with
  | consoleDecimalWrite | consoleAsciiWrite | modemAsciiWrite =>
    obtain ⟨t, rfl⟩ | ⟨t, rfl⟩ := mem_entries_write h
    · rfl
    · exact nofun
  | consoleDecimalRead | consoleAsciiRead | modemAsciiRead =>
    obtain ⟨r, rfl⟩ | ⟨t, rfl⟩ := mem_entries_read h
    · rfl
    · exact nofun
  | bufferProgram | clearBuffer => cases h
  | executeTask =>
    obtain ⟨n, he, hn⟩ := mem_entries_task h
    exact Entry.may_of_eq_note he hn
  | enqueue => exact Entry.may_of_eq_note (mem_entries_enqueue h) nofun
  | dequeueLast =>
    obtain rfl | ⟨b, rfl⟩ := mem_entries_takeLast h
    · exact nofun
    · exact nofun
  | dequeueFirst | add | sub | mul | div | and | or | xor =>
    refine Entry.may_of_eq_note (mem_entries_take h) ?_
    cases s.buffer <;> exact nofun
  | toLowerCase | toUpperCase | toDecimal | toOperator | not | getPointer | getPosition =>
    simp only [effect, Effect.entries_ending] at h
    cases h
  | jumpLeft | jumpRight =>
    simp only [effect, entries_jump] at h
    cases h

namespace Operator

/-- What an operator adds to the trace; `operation` is the operation that it carries out. -/
theorem may_of_mem_entries {o : Operator} {w : World} {c : Cell} {operation : Option Mode}
    {e : Entry} (hop : o = .operate → w.machine.isDead = false →
      operation = Mode.ofCell? w.machine.mode)
    (h : e ∈ o.entries w c) : e.May operation := by
  cases o with
  | beginLoop => exact Entry.may_of_eq_note (List.mem_singleton.1 h) nofun
  | endLoop =>
    simp only [entries] at h
    split at h
    · exact Entry.may_of_eq_note (List.mem_singleton.1 h) nofun
    · cases h
  | operate =>
    simp only [entries] at h
    split at h
    · cases h
    · rename_i hd
      rw [hop rfl (Bool.eq_false_iff.2 hd)]
      split at h
      · exact Entry.may_of_eq_note (List.mem_singleton.1 h) nofun
      · rename_i m hm
        rw [hm]
        rcases List.mem_append.1 h with h | h
        · exact Mode.may_of_mem_entries h
        · exact Entry.may_of_eq_note (List.mem_singleton.1 h) nofun
  | advance | retreat | increment | decrement | setMode => cases h

end Operator

/-- **What a step adds to the trace**: notes, none of them of an error, and what its operation reads
or writes. -/
theorem World.may_of_mem_entries {w : World} {e : Entry} (h : e ∈ w.entries) :
    e.May w.machine.operation? := by
  unfold entries at h
  split at h
  · cases h
  · rename_i ch hi
    split at h
    · rename_i o c ho hc
      obtain rfl := Operator.symbol_of_ofSymbol? ho
      have hacted : e ∈ o.entries (w.started o c) c ++
          [.note (.evaluating o c w.machine.buffer.length w.machine.position),
            .note (.fetched (String.singleton o.symbol))] → e.May w.machine.operation? := by
        intro h
        rcases List.mem_append.1 h with h | h
        · refine Operator.may_of_mem_entries ?_ h
          rintro rfl hd
          exact Machine.operation?_eq hd hi hc
        · simp only [List.mem_cons, List.not_mem_nil, or_false] at h
          obtain rfl | rfl := h
          · exact nofun
          · exact nofun
      dsimp only at h
      split at h
      · obtain rfl | h := List.mem_cons.1 h
        · exact nofun
        · exact hacted h
      · exact hacted h
    · exact Entry.may_of_eq_note (List.mem_singleton.1 h) nofun

end TapeMachine
