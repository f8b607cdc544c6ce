import TapeMachine.Proofs.CharacterReads

/-!
# The discipline of the buffer

Bytes are queued at one end of the buffer and taken out at either.  Here the three operations that
do so are carried out in any order, as often as one likes, with anything assigned to the current
cell in between (`Deed`).  A `Turn` is one of them with the worlds before and after it, and what it
can do is said once (`Turn.Goes`, `World.goes_turn`).  From this come, turn by turn and then for all
of them:

* no byte is lost and none is doubled (`World.perm_turns`);
* what is taken at the old end comes out in the order in which it was queued (`World.fifo_turns`),
  what is taken at the new end in the reverse order (`World.filo_turns`);
* as long as there are enough bytes, each taking finds one (`World.returned_eq_taken`), and after
  that a zero (`World.returned_of_dequeueFirst`).

Values are read off the current cell, before a byte is queued and after one is taken.
-/

namespace TapeMachine

open Exec

/-- What is done to the buffer and to the current cell. -/
inductive Deed where
  /-- Something is assigned to the current cell. -/
  | assign (c : Cell)
  /-- The current cell is queued. -/
  | enqueue
  /-- The oldest byte is taken into the current cell. -/
  | dequeueFirst
  /-- The newest byte is taken into the current cell. -/
  | dequeueLast
deriving DecidableEq

namespace Deed

/-- The deed takes a byte. -/
def isDequeue : Deed → Bool
  | .dequeueFirst | .dequeueLast => true
  | _ => false

/-- The deed as a computation. -/
def exec : Deed → Exec Unit
  | .assign c => store c
  | .enqueue => do let _ ← Mode.enqueue.perform
  | .dequeueFirst => do let _ ← Mode.dequeueFirst.perform
  | .dequeueLast => do let _ ← Mode.dequeueLast.perform

end Deed

/-! ### Turns -/

/-- A deed with the worlds before and after it. -/
structure Turn where
  deed : Deed
  before : World
  result : Except Fault Unit
  after : World

namespace World

/-- A deed is done. -/
def turn (w : World) (d : Deed) : Turn where
  deed := d
  before := w
  result := (d.exec.on w).1
  after := (d.exec.on w).2

/-- Deeds are done one after the other, whether they end in a fault or not. -/
def turns (w : World) : List Deed → List Turn
  | [] => []
  | d :: ds => w.turn d :: (w.turn d).after.turns ds

/-- The world after deeds. -/
def afterDeeds (w : World) : List Deed → World
  | [] => w
  | d :: ds => (w.turn d).after.afterDeeds ds

/-- The buffer, each byte as the current cell would hold it. -/
def contents (w : World) : List (Except Fault Cell) :=
  w.machine.buffer.map fun b => .ok (.int b.toNat)

end World

namespace Turn

variable (t : Turn)

/-- What was queued, if the deed was to do so and did not end in a fault. -/
def queued : List (Except Fault Cell) :=
  if t.deed = .enqueue ∧ t.result.isOk then [t.before.machine.cell] else []

/-- What was left in the current cell, if the deed was to take a byte. -/
def returned : List (Except Fault Cell) :=
  if t.deed.isDequeue then [t.after.machine.cell] else []

/-- The same, if there was a byte to be taken. -/
def taken : List (Except Fault Cell) := if t.before.machine.buffer = [] then [] else t.returned

end Turn

namespace World

variable (w : World) (ds : List Deed)

/-- What was queued. -/
def enqueued : List (Except Fault Cell) := (w.turns ds).flatMap Turn.queued

/-- What was left in the current cell by deeds that take a byte. -/
def returned : List (Except Fault Cell) := (w.turns ds).flatMap Turn.returned

/-- What was left there by those that found one. -/
def taken : List (Except Fault Cell) := (w.turns ds).flatMap Turn.taken

theorem enqueued_cons (d : Deed) :
    w.enqueued (d :: ds) = (w.turn d).queued ++ (w.turn d).after.enqueued ds := List.flatMap_cons

theorem returned_cons (d : Deed) :
    w.returned (d :: ds) = (w.turn d).returned ++ (w.turn d).after.returned ds := List.flatMap_cons

theorem taken_cons (d : Deed) :
    w.taken (d :: ds) = (w.turn d).taken ++ (w.turn d).after.taken ds := List.flatMap_cons

theorem afterDeeds_append (es fs : List Deed) :
    w.afterDeeds (es ++ fs) = (w.afterDeeds es).afterDeeds fs := by
  induction es generalizing w with
  | nil => rfl
  | cons e es ih => exact ih _

end World

/-! ### What a turn can do -/

/-- **What a turn can do** where there is a current cell. -/
inductive Turn.Goes (t : Turn) : Prop
  | assigns (c : Cell) (deed : t.deed = .assign c) (works : t.result.isOk = true)
      (buffer : t.after.machine.buffer = t.before.machine.buffer)
      (cell : t.after.machine.cell = .ok c)
  | queues (b : UInt8) (deed : t.deed = .enqueue) (works : t.result.isOk = true)
      (held : t.before.machine.cell = .ok (.int b.toNat))
      (buffer : t.after.machine.buffer = t.before.machine.buffer ++ [b])
      (cell : t.after.machine.cell = t.before.machine.cell)
  | refuses (c : Cell) (deed : t.deed = .enqueue) (fails : t.result.isOk = false)
      (held : t.before.machine.cell = .ok c) (odd : ¬c.IsByte)
      (buffer : t.after.machine.buffer = t.before.machine.buffer)
      (cell : t.after.machine.cell = t.before.machine.cell)
  | takesFirst (b : UInt8) (deed : t.deed = .dequeueFirst) (works : t.result.isOk = true)
      (buffer : t.before.machine.buffer = b :: t.after.machine.buffer)
      (cell : t.after.machine.cell = .ok (.int b.toNat))
  | takesLast (b : UInt8) (deed : t.deed = .dequeueLast) (works : t.result.isOk = true)
      (buffer : t.before.machine.buffer = t.after.machine.buffer ++ [b])
      (cell : t.after.machine.cell = .ok (.int b.toNat))
  | findsNothing (deed : t.deed.isDequeue = true) (works : t.result.isOk = true)
      (empty : t.before.machine.buffer = []) (buffer : t.after.machine.buffer = [])
      (cell : t.after.machine.cell = .ok Cell.zero)

namespace World

variable {w : World} {c : Cell}

/-- A turn that performs the operation of a mode applies its effect. -/
theorem turn_of_effect (h : w.machine.cell = .ok c) {d : Deed} {m : Mode} {e : Effect}
    (hd : d.exec = do let _ ← m.perform) (he : m.effect (w.situation c) = e) :
    w.turn d = ⟨d, w, e.result, w.apply e⟩ := by
  have hexec : d.exec.on w = (e.result, w.apply e) := by
    rw [hd, on_bind, m.on_perform h, he]
    cases e.result <;> rfl
  rw [turn, hexec]

/-- What an operation stores is in the current cell. -/
theorem cell_apply {d : Cell} (h : w.machine.cell = .ok c) {e : Effect}
    (he : e.stored = some d) : (w.apply e).machine.cell = .ok d := by
  refine State.cell_of_put h ?_ rfl
  simp only [apply, he]

theorem goes_assign (h : w.machine.cell = .ok c) (d : Cell) : (w.turn (.assign d)).Goes := by
  have hstore : (Deed.assign d).exec.on w =
      (.ok (), { w with machine := { w.machine with cells := (w.machine.put d).cells } }) := by
    rw [Deed.exec, on_store, State.set_cells_eq_ok h]
  rw [turn, hstore]
  exact .assigns d rfl rfl rfl (State.cell_of_put h rfl rfl)

theorem goes_enqueue (h : w.machine.cell = .ok c) : (w.turn .enqueue).Goes := by
  by_cases hbyte : c.IsByte
  · obtain ⟨i, rfl, hge, hle⟩ := hbyte.exists_int
    obtain ⟨b, rfl⟩ : ∃ b : UInt8, i = b.toNat := by
      refine ⟨UInt8.ofNat i.toNat, ?_⟩
      rw [UInt8.toNat_ofNat']
      omega
    have heffect : Mode.enqueue.effect (w.situation (.int b.toNat)) =
        { (w.situation (.int b.toNat)).keep [.note (.storing (.int b.toNat))] with
          buffer := w.machine.buffer ++ [b] } := by
      simp only [Mode.effect, Situation.enqueue, situation, Int.toNat_natCast, UInt8.ofNat_toNat]
      exact if_pos ⟨hge, by omega⟩
    rw [turn_of_effect h rfl heffect]
    exact .queues b rfl rfl h rfl rfl
  · obtain ⟨f, heffect⟩ : ∃ f, Mode.enqueue.effect (w.situation c) =
        { (w.situation c).keep [.note (.storing c)] with fault := some f } := by
      cases c with
      | block bs => exact ⟨.blockForNumber, rfl⟩
      | int i => exact ⟨.notAByte, if_neg fun hi => hbyte ⟨hi.1, by omega⟩⟩
    rw [turn_of_effect h rfl heffect]
    exact .refuses c rfl rfl h hbyte rfl rfl

theorem goes_dequeueFirst (h : w.machine.cell = .ok c) : (w.turn .dequeueFirst).Goes := by
  have heffect : Mode.dequeueFirst.effect (w.situation c) =
      { (w.situation c).keep [.note (Situation.takenNote w.machine.buffer)] with
        buffer := w.machine.buffer.tail
        stored := some (.int (w.machine.buffer.headD 0).toNat) } := rfl
  rw [turn_of_effect h rfl heffect]
  cases hb : w.machine.buffer with
  | nil => exact .findsNothing rfl rfl hb rfl (cell_apply h rfl)
  | cons b bs => exact .takesFirst b rfl rfl hb (cell_apply h rfl)

theorem goes_dequeueLast (h : w.machine.cell = .ok c) : (w.turn .dequeueLast).Goes := by
  cases hb : w.machine.buffer.getLast? with
  | none =>
    have heffect : Mode.dequeueLast.effect (w.situation c) =
        { (w.situation c).keep [.note .nothingQueued] with stored := some Cell.zero } := by
      simp only [Mode.effect, Situation.takeLast, situation, hb]
    have hempty := List.getLast?_eq_none_iff.1 hb
    rw [turn_of_effect h rfl heffect]
    exact .findsNothing rfl rfl hempty hempty (cell_apply h rfl)
  | some b =>
    have heffect : Mode.dequeueLast.effect (w.situation c) =
        { (w.situation c).keep [.note (.dequeued b)] with
          buffer := w.machine.buffer.dropLast, stored := some (.int b.toNat) } := by
      simp only [Mode.effect, Situation.takeLast, situation, hb]
    obtain ⟨bs, hbs⟩ := List.getLast?_eq_some_iff.1 hb
    rw [turn_of_effect h rfl heffect]
    refine .takesLast b rfl rfl ?_ (cell_apply h rfl)
    change w.machine.buffer = w.machine.buffer.dropLast ++ [b]
    rw [hbs, List.dropLast_concat]

theorem goes_turn (h : w.machine.cell.isOk = true) (d : Deed) : (w.turn d).Goes := by
  obtain ⟨c, hc⟩ : ∃ c, w.machine.cell = .ok c := by
    cases hc : w.machine.cell with
    | ok c => exact ⟨c, rfl⟩
    | error f =>
      rw [hc] at h
      cases h
  cases d with
  | assign d => exact goes_assign hc d
  | enqueue => exact goes_enqueue hc
  | dequeueFirst => exact goes_dequeueFirst hc
  | dequeueLast => exact goes_dequeueLast hc

end World

/-! ### What goes in and out -/

theorem World.length_contents (w : World) : w.contents.length = w.machine.buffer.length :=
  List.length_map _

namespace Turn

variable {t : Turn}

theorem queued_eq_nil (h : t.deed ≠ .enqueue) : t.queued = [] := if_neg fun he => h he.1

theorem returned_eq_nil (h : t.deed.isDequeue = false) : t.returned = [] := by
  rw [returned, h]
  rfl

theorem taken_eq_nil (h : t.deed.isDequeue = false) : t.taken = [] := by
  rw [taken, returned_eq_nil h, ite_self]

theorem taken_eq_returned (h : t.before.machine.buffer ≠ []) : t.taken = t.returned := if_neg h

theorem returned_eq_singleton (h : t.deed.isDequeue = true) :
    t.returned = [t.after.machine.cell] := if_pos h

namespace Goes

theorem isOk_cell (h : t.Goes) (hc : t.before.machine.cell.isOk = true) :
    t.after.machine.cell.isOk = true := by
  cases h with
  | queues _ _ _ _ _ cell | refuses _ _ _ _ _ _ cell => rwa [cell]
  | assigns _ _ _ _ cell | takesFirst _ _ _ _ cell | takesLast _ _ _ _ cell
  | findsNothing _ _ _ _ cell => rw [cell, isOk_ok]

/-- **What goes in and out in a turn**: nothing, a value in at the new end, or one out at either. -/
theorem flow (h : t.Goes) :
    (t.queued = [] ∧ t.taken = [] ∧ t.after.contents = t.before.contents) ∨
    (∃ x, t.deed = .enqueue ∧ t.queued = [x] ∧ t.taken = [] ∧
      t.after.contents = t.before.contents ++ [x]) ∨
    (∃ x, t.deed = .dequeueFirst ∧ t.queued = [] ∧ t.taken = [x] ∧
      t.before.contents = x :: t.after.contents) ∨
    ∃ x, t.deed = .dequeueLast ∧ t.queued = [] ∧ t.taken = [x] ∧
      t.before.contents = t.after.contents ++ [x] := by
  cases h with
  | assigns _ deed _ buffer _ =>
    refine .inl ⟨queued_eq_nil (by simp [deed]), taken_eq_nil (by rw [deed]; rfl), ?_⟩
    rw [World.contents, buffer, World.contents]
  | queues _ deed works held buffer _ =>
    refine .inr (.inl ⟨t.before.machine.cell, deed, if_pos ⟨deed, works⟩,
      taken_eq_nil (by rw [deed]; rfl), ?_⟩)
    rw [World.contents, buffer, List.map_append, held]
    rfl
  | refuses _ deed fails _ _ buffer _ =>
    refine .inl ⟨if_neg fun hq => ?_, taken_eq_nil (by rw [deed]; rfl), ?_⟩
    · cases fails.symm.trans hq.2
    · rw [World.contents, buffer, World.contents]
  | takesFirst b deed _ buffer cell =>
    refine .inr (.inr (.inl ⟨.ok (.int b.toNat), deed, queued_eq_nil (by simp [deed]), ?_, ?_⟩))
    · rw [taken_eq_returned (by simp [buffer]), returned_eq_singleton (by rw [deed]; rfl), cell]
    · rw [World.contents, buffer]
      rfl
  | takesLast b deed _ buffer cell =>
    refine .inr (.inr (.inr ⟨.ok (.int b.toNat), deed, queued_eq_nil (by simp [deed]), ?_, ?_⟩))
    · rw [taken_eq_returned (by simp [buffer]), returned_eq_singleton (by rw [deed]; rfl), cell]
    · rw [World.contents, buffer, List.map_append]
      rfl
  | findsNothing deed _ empty buffer _ =>
    refine .inl ⟨queued_eq_nil fun he => ?_, if_pos empty, ?_⟩
    · rw [he] at deed
      cases deed
    · rw [World.contents, buffer, World.contents, empty]

/-- What goes out at the old end comes before what stays, and what goes in comes after it. -/
theorem fifo (h : t.Goes) (hd : t.deed ≠ .dequeueLast) :
    t.taken ++ t.after.contents = t.before.contents ++ t.queued := by
  obtain ⟨hq, ht, hc⟩ | ⟨x, -, hq, ht, hc⟩ | ⟨x, -, hq, ht, hc⟩ | ⟨x, hlast, -⟩ := h.flow
  · rw [hq, ht, hc, List.nil_append, List.append_nil]
  · rw [hq, ht, hc, List.nil_append]
  · rw [hq, ht, hc, List.append_nil]
    rfl
  · exact absurd hlast hd

/-- Nothing is lost and nothing is doubled, at whichever end it goes out. -/
theorem perm (h : t.Goes) :
    (t.taken ++ t.after.contents).Perm (t.before.contents ++ t.queued) := by
  obtain ⟨hq, ht, hc⟩ | ⟨x, -, hq, ht, hc⟩ | ⟨x, -, hq, ht, hc⟩ | ⟨x, -, hq, ht, hc⟩ := h.flow
  · rw [hq, ht, hc, List.nil_append, List.append_nil]
  · rw [hq, ht, hc, List.nil_append]
  · rw [hq, ht, hc, List.append_nil]
    exact .rfl
  · rw [hq, ht, hc, List.append_nil]
    exact List.perm_append_comm

theorem balance (h : t.Goes) :
    t.before.machine.buffer.length + t.queued.length =
      t.taken.length + t.after.machine.buffer.length := by
  have hlength := h.perm.length_eq
  rw [List.length_append, List.length_append, World.length_contents, World.length_contents]
    at hlength
  exact hlength.symm

/-- What goes out at the new end comes after what stays. -/
theorem filo (h : t.Goes) (hq : t.deed ≠ .enqueue) (hf : t.deed ≠ .dequeueFirst) :
    t.before.contents = t.after.contents ++ t.taken.reverse := by
  obtain ⟨-, ht, hc⟩ | ⟨x, hqueue, -⟩ | ⟨x, hfirst, -⟩ | ⟨x, -, -, ht, hc⟩ := h.flow
  · rw [ht, hc, List.reverse_nil, List.append_nil]
  · exact absurd hqueue hq
  · exact absurd hfirst hf
  · rw [ht, hc, List.reverse_singleton]

/-- Something is queued exactly if it is a byte; else the buffer stays as it was. -/
theorem enqueue_fails_iff (h : t.Goes) (hd : t.deed = .enqueue) :
    (t.result.isOk = false ↔
      ¬∃ i, t.before.machine.cell = .ok (.int i) ∧ 0 ≤ i ∧ i ≤ 255) ∧
    (t.result.isOk = false → t.after.machine.buffer = t.before.machine.buffer) := by
  cases h with
  | queues b _ works held _ _ =>
    rw [works]
    refine ⟨iff_of_false (by decide) fun hno => hno ?_, fun hf => by cases hf⟩
    exact ⟨b.toNat, held, Cell.isByte_of_uint8 b⟩
  | refuses _ _ fails held odd buffer _ =>
    refine ⟨iff_of_true fails ?_, fun _ => buffer⟩
    rintro ⟨i, hi, hbyte⟩
    obtain rfl := Except.ok.inj (held.symm.trans hi)
    exact odd hbyte
  | assigns _ deed _ _ _ | takesFirst _ deed _ _ _ | takesLast _ deed _ _ _ =>
    cases deed.symm.trans hd
  | findsNothing deed _ _ _ _ =>
    rw [hd] at deed
    cases deed

/-- The oldest byte is taken, or a zero if there is none, and all others move up. -/
theorem dequeueFirst (h : t.Goes) (hd : t.deed = .dequeueFirst) :
    t.after.machine.cell = .ok (.int (t.before.machine.buffer.getD 0 0).toNat) ∧
      ∀ i, t.after.machine.buffer.getD i 0 = t.before.machine.buffer.getD (i + 1) 0 := by
  cases h with
  | takesFirst _ _ _ buffer cell =>
    rw [cell, buffer]
    exact ⟨rfl, fun _ => rfl⟩
  | findsNothing _ _ empty buffer cell =>
    rw [cell, buffer, empty]
    exact ⟨rfl, fun _ => rfl⟩
  | assigns _ deed _ _ _ | queues _ deed _ _ _ _ | refuses _ deed _ _ _ _ _
  | takesLast _ deed _ _ _ => cases deed.symm.trans hd

/-- Where there is no byte to be taken, a zero is stored. -/
theorem dequeue_of_empty (h : t.Goes) (hd : t.deed.isDequeue = true)
    (hb : t.before.machine.buffer = []) :
    t.result.isOk = true ∧ t.after.machine.cell = .ok Cell.zero := by
  cases h with
  | findsNothing _ works _ _ cell => exact ⟨works, cell⟩
  | takesFirst _ _ _ buffer _ => cases hb.symm.trans buffer
  | takesLast _ _ _ buffer _ => exact absurd (buffer.symm.trans hb) (List.concat_ne_nil _ _)
  | assigns _ deed _ _ _ | queues _ deed _ _ _ _ | refuses _ deed _ _ _ _ _ =>
    rw [deed] at hd
    cases hd

end Goes

end Turn

/-! ### Turn after turn -/

namespace World

variable {w : World} {ds : List Deed}

theorem isOk_cell_turn (h : w.machine.cell.isOk = true) (d : Deed) :
    (w.turn d).after.machine.cell.isOk = true := (goes_turn h d).isOk_cell h

theorem isOk_cell_afterDeeds (h : w.machine.cell.isOk = true) (ds : List Deed) :
    (w.afterDeeds ds).machine.cell.isOk = true := by
  induction ds generalizing w with
  | nil => exact h
  | cons d ds ih => exact ih (isOk_cell_turn h d)

theorem goes_of_mem_turns (h : w.machine.cell.isOk = true) {t : Turn} (ht : t ∈ w.turns ds) :
    t.Goes := by
  induction ds generalizing w with
  | nil => cases ht
  | cons d ds ih =>
    rcases List.mem_cons.1 ht with rfl | ht
    · exact goes_turn h d
    · exact ih (isOk_cell_turn h d) ht

/-- **No byte is lost and none is doubled**, whatever is queued and taken in between. -/
theorem perm_turns (h : w.machine.cell.isOk = true) (ds : List Deed) :
    (w.taken ds ++ (w.afterDeeds ds).contents).Perm (w.contents ++ w.enqueued ds) := by
  induction ds generalizing w with
  | nil => exact .of_eq (List.append_nil _).symm
  | cons d ds ih =>
    have hturn : ((w.turn d).taken ++ (w.turn d).after.contents).Perm
        (w.contents ++ (w.turn d).queued) := (goes_turn h d).perm
    have hrest := ih (isOk_cell_turn h d)
    rw [taken_cons, enqueued_cons, afterDeeds, List.append_assoc, ← List.append_assoc w.contents]
    refine (hrest.append_left _).trans ?_
    rw [← List.append_assoc]
    exact hturn.append_right _

theorem balance_turns (h : w.machine.cell.isOk = true) (ds : List Deed) :
    w.machine.buffer.length + (w.enqueued ds).length =
      (w.taken ds).length + (w.afterDeeds ds).machine.buffer.length := by
  have hlength := (perm_turns h ds).length_eq
  rw [List.length_append, List.length_append, length_contents, length_contents] at hlength
  exact hlength.symm

/-- **First in, first out**, if no byte is taken at the new end. -/
theorem fifo_turns (h : w.machine.cell.isOk = true) (hds : .dequeueLast ∉ ds) :
    w.taken ds ++ (w.afterDeeds ds).contents = w.contents ++ w.enqueued ds := by
  induction ds generalizing w with
  | nil => exact (List.append_nil _).symm
  | cons d ds ih =>
    have hturn : (w.turn d).taken ++ (w.turn d).after.contents = w.contents ++ (w.turn d).queued :=
      (goes_turn h d).fifo (List.ne_of_not_mem_cons hds).symm
    have hrest := ih (isOk_cell_turn h d) (List.not_mem_of_not_mem_cons hds)
    rw [taken_cons, enqueued_cons, afterDeeds, List.append_assoc, hrest]
    calc (w.turn d).taken ++ ((w.turn d).after.contents ++ (w.turn d).after.enqueued ds)
      _ = ((w.turn d).taken ++ (w.turn d).after.contents) ++ (w.turn d).after.enqueued ds :=
        (List.append_assoc _ _ _).symm
      _ = (w.contents ++ (w.turn d).queued) ++ (w.turn d).after.enqueued ds := by rw [hturn]
      _ = w.contents ++ ((w.turn d).queued ++ (w.turn d).after.enqueued ds) :=
        List.append_assoc _ _ _

/-- **First in, last out**, if bytes are taken at the new end only and none is queued. -/
theorem filo_turns (h : w.machine.cell.isOk = true) (hq : .enqueue ∉ ds)
    (hf : .dequeueFirst ∉ ds) :
    w.contents = (w.afterDeeds ds).contents ++ (w.taken ds).reverse := by
  induction ds generalizing w with
  | nil => exact (List.append_nil _).symm
  | cons d ds ih =>
    have hturn : w.contents = (w.turn d).after.contents ++ (w.turn d).taken.reverse :=
      (goes_turn h d).filo (List.ne_of_not_mem_cons hq).symm (List.ne_of_not_mem_cons hf).symm
    have hrest := ih (isOk_cell_turn h d) (List.not_mem_of_not_mem_cons hq)
      (List.not_mem_of_not_mem_cons hf)
    rw [taken_cons, afterDeeds, List.reverse_append]
    calc w.contents
      _ = (w.turn d).after.contents ++ (w.turn d).taken.reverse := hturn
      _ = (((w.turn d).after.afterDeeds ds).contents ++ ((w.turn d).after.taken ds).reverse) ++
          (w.turn d).taken.reverse := by rw [← hrest]
      _ = ((w.turn d).after.afterDeeds ds).contents ++
          (((w.turn d).after.taken ds).reverse ++ (w.turn d).taken.reverse) :=
        List.append_assoc _ _ _

theorem length_returned (w : World) (ds : List Deed) :
    (w.returned ds).length = ds.countP Deed.isDequeue := by
  induction ds generalizing w with
  | nil => rfl
  | cons d ds ih =>
    rw [returned_cons, List.length_append, ih, List.countP_cons, Nat.add_comm]
    cases hd : d.isDequeue with
    | true => rw [Turn.returned_eq_singleton (t := w.turn d) hd]; rfl
    | false => rw [Turn.returned_eq_nil (t := w.turn d) hd]; rfl

/-- As long as there are enough bytes in the buffer, each taking finds one. -/
theorem returned_eq_taken (h : w.machine.cell.isOk = true)
    (hle : ds.countP Deed.isDequeue ≤ w.machine.buffer.length) : w.returned ds = w.taken ds := by
  induction ds generalizing w with
  | nil => rfl
  | cons d ds ih =>
    have hturn : w.machine.buffer.length + (w.turn d).queued.length =
        (w.turn d).taken.length + (w.turn d).after.machine.buffer.length :=
      (goes_turn h d).balance
    rw [List.countP_cons] at hle
    rw [returned_cons, taken_cons]
    cases hd : d.isDequeue with
    | true =>
      rw [hd, if_pos rfl] at hle
      have hne : w.machine.buffer ≠ [] := List.length_pos_iff.1 (by omega)
      have htaken : (w.turn d).taken = (w.turn d).returned := Turn.taken_eq_returned hne
      have hone : (w.turn d).returned.length = 1 := by
        rw [Turn.returned_eq_singleton (t := w.turn d) hd, List.length_singleton]
      -- One byte less is there, and one taking less is to come.
      rw [htaken] at hturn ⊢
      rw [ih (isOk_cell_turn h d) (by omega)]
    | false =>
      rw [hd, if_neg Bool.false_ne_true] at hle
      have htaken : (w.turn d).taken = [] := Turn.taken_eq_nil hd
      rw [htaken, List.length_nil] at hturn
      rw [htaken, Turn.returned_eq_nil (t := w.turn d) hd, ih (isOk_cell_turn h d) (by omega)]

theorem buffer_assign (w : World) (c : Cell) :
    (w.turn (.assign c)).after.machine.buffer = w.machine.buffer := by
  rw [turn, Deed.exec, on_store]
  cases Index.set w.machine.cells w.machine.pointer c <;> rfl

/-- **The buffer is emptied from its old end**: its bytes in order, and zeros after them. -/
theorem returned_of_dequeueFirst (h : w.machine.cell.isOk = true) (hq : .enqueue ∉ ds)
    (hl : .dequeueLast ∉ ds) :
    w.returned ds = (List.range (ds.count .dequeueFirst)).map fun i =>
      .ok (.int (w.machine.buffer.getD i 0).toNat) := by
  induction ds generalizing w with
  | nil => rfl
  | cons d ds ih =>
    have hrest := ih (isOk_cell_turn h d) (List.not_mem_of_not_mem_cons hq)
      (List.not_mem_of_not_mem_cons hl)
    rw [returned_cons, hrest]
    cases d with
    | assign c =>
      rw [buffer_assign, List.count_cons_of_ne (by simp)]
      rfl
    | dequeueFirst =>
      obtain ⟨hcell, hnext⟩ := (goes_turn h .dequeueFirst).dequeueFirst rfl
      rw [Turn.returned_eq_singleton (t := w.turn .dequeueFirst) rfl, hcell, List.count_cons_self,
        List.range_succ_eq_map, List.map_cons, List.map_map]
      simp only [hnext]
      rfl
    | enqueue => exact absurd List.mem_cons_self hq
    | dequeueLast => exact absurd List.mem_cons_self hl

theorem deed_mem_of_mem_turns {t : Turn} (ht : t ∈ w.turns ds) : t.deed ∈ ds := by
  induction ds generalizing w with
  | nil => cases ht
  | cons d ds ih =>
    rcases List.mem_cons.1 ht with rfl | ht
    · exact List.mem_cons_self
    · exact List.mem_cons_of_mem d (ih ht)

/-- Where no byte is taken, what is queued comes behind what was there. -/
theorem contents_of_no_dequeue (h : w.machine.cell.isOk = true)
    (hds : ∀ d ∈ ds, d.isDequeue = false) :
    (w.afterDeeds ds).contents = w.contents ++ w.enqueued ds := by
  have htaken : w.taken ds = [] := List.flatMap_eq_nil_iff.2 fun t ht =>
    Turn.taken_eq_nil (hds t.deed (deed_mem_of_mem_turns ht))
  have hlast : .dequeueLast ∉ ds := fun hmem => by cases hds _ hmem
  have hfifo := fifo_turns h hlast
  rwa [htaken, List.nil_append] at hfifo

theorem buffer_eq_of_contents {v : World} (h : w.contents = v.contents) :
    w.machine.buffer = v.machine.buffer := by
  refine List.map_injective_iff.2 (fun a b hab => ?_) h
  have hint := Cell.int.inj (Except.ok.inj hab)
  exact UInt8.toNat_inj.1 (Int.ofNat.inj hint)

/-- As many bytes as were queued are taken at the new end: they come out in reverse, and the buffer
is what it was. -/
theorem returned_of_dequeueLast (h : w.machine.cell.isOk = true) {es fs : List Deed}
    (hes : ∀ d ∈ es, d.isDequeue = false) (hq : .enqueue ∉ fs) (hf : .dequeueFirst ∉ fs)
    (hcount : fs.countP Deed.isDequeue = (w.enqueued es).length) :
    (w.afterDeeds es).returned fs = (w.enqueued es).reverse ∧
      (w.afterDeeds (es ++ fs)).machine.buffer = w.machine.buffer := by
  have hcell := isOk_cell_afterDeeds h es
  have hqueued := contents_of_no_dequeue h hes
  have henough : fs.countP Deed.isDequeue ≤ (w.afterDeeds es).machine.buffer.length := by
    rw [← length_contents, hqueued, List.length_append, hcount]
    exact Nat.le_add_left _ _
  -- Both sides end with as many values, so the values and what is before them agree.
  have hfilo := filo_turns hcell hq hf
  rw [← returned_eq_taken hcell henough, hqueued] at hfilo
  have hlength : (w.enqueued es).length = ((w.afterDeeds es).returned fs).reverse.length := by
    rw [List.length_reverse, length_returned, hcount]
  obtain ⟨hbuffer, hvalues⟩ := List.append_inj' hfilo hlength
  rw [afterDeeds_append]
  exact ⟨by rw [hvalues, List.reverse_reverse], (buffer_eq_of_contents hbuffer).symm⟩

/-- The buffer after the program was stored there. -/
theorem buffer_of_bufferProgram (w : World) :
    (Mode.bufferProgram.perform.on w).2.machine.buffer =
      w.machine.program.flatMap String.utf8EncodeChar := by
  change (String.ofList w.machine.program).toUTF8.data.toList = _
  rw [String.toUTF8_eq_toByteArray, String.toByteArray_ofList, List.utf8Encode,
    List.toList_data_toByteArray]

/-- **The discipline of the buffer.**  Let there be a current cell, and whatever buffer.  Bytes are
queued and taken at either end in any order, with anything assigned to the current cell in between.
Then:

* queuing fails exactly if the current cell is not a number from 0 to 255, and leaves the buffer as
  it was;
* the bytes taken and those in the buffer at last are, up to their order, those in the buffer at
  first and the values queued; so the length at first and the number of values queued are together
  the number of bytes taken and the length at last;
* if all bytes are taken at the old end, these and then the buffer at last are the buffer at first
  and then what was queued, in order;
* if values are queued and then as many bytes are taken at the new end, they come out in reverse,
  and the buffer is what it was;
* what takes a byte from an empty buffer stores a zero.

And once the program was stored in the buffer, its bytes in UTF-8 are taken one by one at the old
end, and zeros after them. -/
theorem buffer_discipline (w : World) (h : w.machine.cell.isOk = true) (ds : List Deed) :
    (∀ t ∈ w.turns ds, t.deed = .enqueue →
      (t.result.isOk = false ↔
        ¬∃ i, t.before.machine.cell = .ok (.int i) ∧ 0 ≤ i ∧ i ≤ 255) ∧
      (t.result.isOk = false → t.after.machine.buffer = t.before.machine.buffer)) ∧
    (w.taken ds ++ (w.afterDeeds ds).contents).Perm (w.contents ++ w.enqueued ds) ∧
    w.machine.buffer.length + (w.enqueued ds).length =
      (w.taken ds).length + (w.afterDeeds ds).machine.buffer.length ∧
    (.dequeueLast ∉ ds →
      w.taken ds ++ (w.afterDeeds ds).contents = w.contents ++ w.enqueued ds) ∧
    (∀ es fs, ds = es ++ fs → (∀ d ∈ es, d.isDequeue = false) → .enqueue ∉ fs →
      .dequeueFirst ∉ fs → fs.countP Deed.isDequeue = (w.enqueued es).length →
      (w.afterDeeds es).returned fs = (w.enqueued es).reverse ∧
        (w.afterDeeds ds).machine.buffer = w.machine.buffer) ∧
    (∀ t ∈ w.turns ds, t.deed.isDequeue = true → t.before.machine.buffer = [] →
      t.result.isOk = true ∧ t.after.machine.cell = .ok Cell.zero) ∧
    (.enqueue ∉ ds → .dequeueLast ∉ ds →
      (Mode.bufferProgram.perform.on w).2.returned ds =
        (List.range (ds.count .dequeueFirst)).map fun i =>
          .ok (.int ((w.machine.program.flatMap String.utf8EncodeChar).getD i 0).toNat)) := by
  refine ⟨fun t ht hd => (goes_of_mem_turns h ht).enqueue_fails_iff hd, perm_turns h ds,
    balance_turns h ds, fun hl => fifo_turns h hl, ?_,
    fun t ht hd hb => (goes_of_mem_turns h ht).dequeue_of_empty hd hb, fun hq hl => ?_⟩
  · rintro es fs rfl hes hq hf hcount
    exact returned_of_dequeueLast h hes hq hf hcount
  · -- To store the program leaves the current cell as it was.
    have hcell : (Mode.bufferProgram.perform.on w).2.machine.cell.isOk = true := h
    rw [returned_of_dequeueFirst hcell hq hl, buffer_of_bufferProgram]

/-- Of three values two are bytes and are queued behind a byte; two bytes taken at the new end are
these, the later one first.  The program is a letter of two bytes, and the third taken is a zero. -/
theorem buffer_discipline_refusing :
    ∃ (w : World) (es : List Deed), w.machine.cell.isOk = true ∧ w.machine.buffer = [7] ∧
      (w.turns es).map (fun t => t.result.isOk) = [true, true, true, false, true, true] ∧
      w.enqueued es = [.ok (.int 5), .ok (.int 9)] ∧
      (w.afterDeeds es).returned [.dequeueLast, .assign .zero, .dequeueLast] =
        [.ok (.int 9), .ok (.int 5)] ∧
      (w.afterDeeds (es ++ [.dequeueLast, .assign .zero, .dequeueLast])).machine.buffer = [7] ∧
      (Mode.bufferProgram.perform.on w).2.returned [.dequeueFirst, .dequeueFirst, .dequeueFirst] =
        [.ok (.int 0xc3), .ok (.int 0xa9), .ok (.int 0)] := by
  obtain ⟨w, es, hcell, hbuffer, hprogram, hes, hresults, hqueued⟩ :
      ∃ (w : World) (es : List Deed), w.machine.cell.isOk = true ∧ w.machine.buffer = [7] ∧
        w.machine.program = ['é'] ∧ (∀ d ∈ es, d.isDequeue = false) ∧
        (w.turns es).map (fun t => t.result.isOk) = [true, true, true, false, true, true] ∧
        w.enqueued es = [.ok (.int 5), .ok (.int 9)] :=
    ⟨{ machine := { Machine.load ['é'] with buffer := [7] } },
      [.assign (.int 5), .enqueue, .assign (.int 256), .enqueue, .assign (.int 9), .enqueue],
      by decide +kernel⟩
  obtain ⟨-, -, -, -, hreversed, -⟩ := buffer_discipline w hcell
    (es ++ [.dequeueLast, .assign .zero, .dequeueLast])
  obtain ⟨hreturned, hrestored⟩ :=
    hreversed es _ rfl hes (by decide) (by decide) (by rw [hqueued]; rfl)
  obtain ⟨-, -, -, -, -, -, hstored⟩ := buffer_discipline w hcell
    [.dequeueFirst, .dequeueFirst, .dequeueFirst]
  refine ⟨w, es, hcell, hbuffer, hresults, hqueued, ?_, hrestored.trans hbuffer, ?_⟩
  · rw [hreturned, hqueued]
    rfl
  · rw [hstored (by decide) (by decide), hprogram]
    rfl

end World

end TapeMachine
