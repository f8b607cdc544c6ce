import TapeMachine.Proofs.Course
import TapeMachine.Proofs.DeadLoop
import TapeMachine.Proofs.FrameTrace
import TapeMachine.Proofs.Numerals
import TapeMachine.Proofs.Structured

/-!
# Passages through a program

A machine that is not dead and not about to jump is described by its position, its open loops and
what is to be seen of it: a `Stage`.  `Stage.Leads` says that a given number of steps lead from one
stage of a program to another.  Each operator has its passage of one step, passages are put together
by `Stage.Leads.trans`, which adds the numbers up, and a loop whose cell counts the rounds that are
left is passed in as many rounds and one more, which skips it (`Stage.Leads.loop`).

A passage from the beginning of a program to its end is a run that comes to its end, with a frame for
each step (`Stage.Leads.completesIn`); one that leads to an operation with a fault is a run that
stops there (`Stage.Leads.stopsAfter`).
-/

namespace TapeMachine

open Exec

/-! ### The current cell -/

/-- Storing where the pointer stands on a cell changes this cell. -/
theorem State.cells_put {s : State} {p : Nat} (hp : s.pointer = p) (hlt : p < s.cells.length)
    (d : Cell) : (s.put d).cells = s.cells.set p d := by
  unfold put Index.set Index.resolve
  rw [hp, if_pos (by omega)]
  rfl

namespace Observation

variable {x : Observation} {p : Nat} {c d : Cell}

/-- The pointer stands on cell `p`, and that holds `c`. -/
structure Holds (x : Observation) (p : Nat) (c : Cell) : Prop where
  pointer_eq : x.pointer = p
  getElem?_eq : x.cells[p]? = some c

/-- What is to be seen once cell `p` is replaced. -/
def put (x : Observation) (p : Nat) (d : Cell) : Observation := { x with cells := x.cells.set p d }

theorem Holds.lt (h : x.Holds p c) : p < x.cells.length :=
  (List.getElem?_eq_some_iff.1 h.getElem?_eq).1

theorem Holds.put (h : x.Holds p c) (d : Cell) : (x.put p d).Holds p d where
  pointer_eq := h.pointer_eq
  getElem?_eq := List.getElem?_set_self h.lt

theorem Holds.put_eq (h : x.Holds p c) : x.put p c = x := by
  obtain ⟨hlt, rfl⟩ := List.getElem?_eq_some_iff.1 h.getElem?_eq
  rw [Observation.put, List.set_getElem_self]

theorem Holds.withMode (h : x.Holds p c) (mode : Cell) : { x with mode }.Holds p c :=
  ⟨h.pointer_eq, h.getElem?_eq⟩

theorem put_put (x : Observation) (p : Nat) (c d : Cell) : (x.put p c).put p d = x.put p d := by
  simp only [put, List.set_set]

/-- What is to be seen after an operation with the given effect on cell `p`. -/
def after (x : Observation) (p : Nat) (f : Effect) : Observation where
  cells := match f.stored with
    | some d => x.cells.set p d
    | none => x.cells
  pointer := x.pointer
  buffer := f.buffer
  mode := x.mode
  events := x.events ++ f.entries.reverse.filterMap Entry.event?
  lines := f.lines

/-- What is to be seen of a machine that has used nothing but the first two cells, which hold `n` and
`k`, and stands at cell `p`. -/
def counters (lines : Lines) (events : List Event) (p n k : Nat) : Observation where
  cells := .int n :: .int k :: List.replicate 254 Cell.zero
  pointer := p
  buffer := []
  mode := Cell.zero
  events := events
  lines := lines

section Counters

variable {lines : Lines} {events : List Event} {n k : Nat}

theorem holds_first : (counters lines events 0 n k).Holds 0 (.int n) := ⟨rfl, rfl⟩

theorem holds_second : (counters lines events 1 n k).Holds 1 (.int k) := ⟨rfl, rfl⟩

end Counters

end Observation

/-! ### Skipped operators -/

namespace World.Idles

variable {w u : World} {c : Cell} {e n : Nat} {body : List Operator}

theorem instruction_eq (h : w.Idles n u) (hp : w.machine.position = e) {ch : Char}
    (hi : w.machine.program[e + n]? = some ch) : u.machine.instruction = .ok ch := by
  refine Machine.instruction_of_get ?_
  rw [h.position_eq, h.agree.program_eq, hp]
  exact Index.get_natCast_eq_ok_iff.2 hi

/-- A dead machine goes through operators that are not brackets and does nothing. -/
theorem others (hbody : ∀ o ∈ body, o.isBracket = false) (hc : w.machine.cell = .ok c)
    (ht : w.machine.target = none ∨ w.machine.target = some 0) (hd : w.machine.isDead = true)
    (hp : w.machine.position = e)
    (htext : body.map Operator.symbol <+: w.machine.program.drop e) :
    ∃ u, w.Idles body.length u ∧ u.machine.loops = w.machine.loops ∧
      u.machine.deadDepth = w.machine.deadDepth := by
  induction body generalizing w e with
  | nil => exact ⟨w, .zero w, rfl, rfl⟩
  | cons o body ih =>
    have hi := (zero w).instruction_eq hp (getElem?_of_prefix_drop htext)
    obtain ⟨u, hu, hul, hud⟩ := other hc ht (hbody o List.mem_cons_self) hd hi
    obtain ⟨v, hv, hvl, hvd⟩ := ih (e := e + 1) (fun o ho => hbody o (List.mem_cons_of_mem _ ho))
      (hu.agree.cell_eq.trans hc) (by rw [hu.target_eq]; exact ht)
      (by rw [State.isDead, hud]; exact hd) (by rw [hu.position_eq, hp]; rfl)
      (by
        rw [hu.agree.program_eq]
        exact prefix_drop_add_length (l := [o.symbol]) htext)
    refine ⟨v, ?_, hvl.trans hul, hvd.trans hud⟩
    rw [List.length_cons, Nat.add_comm]
    exact hu.trans hv

end World.Idles

/-! ### Stages -/

/-- Where a machine stands that is neither dead nor about to jump. -/
structure Stage where
  /-- The position of the next instruction. -/
  position : Nat
  /-- The positions of the open loops, the innermost first. -/
  loops : List Int
  /-- What is to be seen. -/
  seen : Observation

/-- What an operation reads at a stage of a program where the current cell is `c`. -/
def Stage.situation (s : Stage) (program : List Char) (c : Cell) : Situation where
  cell := c
  pointer := s.seen.pointer
  position := s.position
  buffer := s.seen.buffer
  program := program
  lines := s.seen.lines

namespace World

variable {w v : World} {program : List Char} {s : Stage} {p : Nat} {c : Cell}

/-- The world is at a stage of the program. -/
structure IsAt (w : World) (program : List Char) (s : Stage) : Prop where
  program_eq : w.machine.program = program
  position_eq : w.machine.position = s.position
  loops_eq : w.machine.loops = s.loops
  dead_eq : w.machine.deadDepth = 0
  target_eq : w.machine.target = none
  observe_eq : w.observe = s.seen

theorem observe_completed (w : World) (left : Bool) (why : Option Idle) :
    (w.completed left why).observe = w.observe := by
  obtain ⟨p, t, hmove⟩ := exists_moveOn_eq w.machine.toState
  have hstate : (w.completed left why).machine.toState =
      { w.machine.toState with position := p, target := t } := hmove
  rw [observe, hstate, events_completed]
  rfl

theorem load_isAt (lines : Lines) (program : String) :
    (load lines program).IsAt program.toList ⟨0, [], (load lines program).observe⟩ :=
  ⟨rfl, rfl, rfl, rfl, rfl, rfl⟩

namespace IsAt

theorem live (h : w.IsAt program s) : w.machine.isDead = false := by
  rw [State.isDead, h.dead_eq]
  rfl

theorem cell_eq (h : w.IsAt program s) (hx : s.seen.Holds p c) : w.machine.cell = .ok c := by
  rw [← h.observe_eq] at hx
  refine State.cell_eq_ok_iff.2 ?_
  rw [show w.machine.pointer = p from hx.pointer_eq]
  exact Index.get_natCast_eq_ok_iff.2 hx.getElem?_eq

theorem instruction_eq (h : w.IsAt program s) {ch : Char} (hi : program[s.position]? = some ch) :
    w.machine.instruction = .ok ch := by
  refine Machine.instruction_of_get ?_
  rw [h.position_eq, h.program_eq]
  exact Index.get_natCast_eq_ok_iff.2 hi

theorem situation_eq (h : w.IsAt program s) (c : Cell) :
    w.situation c = s.situation program c := by
  rw [Stage.situation, ← h.observe_eq, ← h.position_eq, ← h.program_eq]
  rfl

theorem started (h : w.IsAt program s) (o : Operator) (c : Cell) :
    (w.started o c).IsAt program s :=
  { h with
    observe_eq := by
      rw [← h.observe_eq, observe, observe, events_started]
      rfl }

/-- A machine that is not about to jump moves on to the next position. -/
theorem completed (h : w.IsAt program s) (left : Bool) (why : Option Idle) :
    (w.completed left why).IsAt program { s with position := s.position + 1 } := by
  have hmove := State.moveOn_eq_of_target_eq_none h.target_eq
  have hstate : (w.completed left why).machine.toState =
      { w.machine.toState with position := w.machine.position + 1 } := hmove
  exact
    { program_eq := h.program_eq
      position_eq := by rw [hstate, h.position_eq]; rfl
      loops_eq := by rw [hstate]; exact h.loops_eq
      dead_eq := by rw [hstate]; exact h.dead_eq
      target_eq := by rw [hstate]; exact h.target_eq
      observe_eq := (observe_completed w left why).trans h.observe_eq }

theorem idles (h : w.IsAt program s) {u : World} {n : Nat} (hu : w.Idles n u)
    (hl : u.machine.loops = s.loops) (hd : u.machine.deadDepth = 0) :
    u.IsAt program { s with position := s.position + n } where
  program_eq := hu.agree.program_eq.trans h.program_eq
  position_eq := by
    rw [hu.position_eq, h.position_eq]
    rfl
  loops_eq := hl
  dead_eq := hd
  target_eq := hu.target_eq.trans h.target_eq
  observe_eq := hu.agree.observe_eq.trans h.observe_eq

section Operation

variable {m : Mode} (h : w.IsAt program s) (hx : s.seen.Holds p c)
include h hx

theorem operation?_eq (hi : program[s.position]? = some '?')
    (hm : Mode.ofCell? s.seen.mode = some m) : w.machine.operation? = some m := by
  rw [Machine.operation?_eq h.live (h.instruction_eq hi) (h.cell_eq hx), ← hm, ← h.observe_eq]
  rfl

theorem operated (ht : (m.effect (s.situation program c)).target = none) :
    (w.operated m c).IsAt program
      { s with seen := s.seen.after p (m.effect (s.situation program c)) } := by
  rw [← h.situation_eq c] at ht ⊢
  refine { h with target_eq := ?_, observe_eq := ?_ }
  · simp only [World.operated, apply, ht]
    exact h.target_eq
  · rw [← h.observe_eq] at hx ⊢
    have hcells : (w.operated m c).machine.cells =
        (w.observe.after p (m.effect (w.situation c))).cells := by
      cases hs : (m.effect (w.situation c)).stored with
      | none =>
        simp only [World.operated, apply, Observation.after, hs]
        rfl
      | some d =>
        simp only [World.operated, apply, Observation.after, hs]
        exact State.cells_put (s := (w.started .operate c).machine.toState) hx.pointer_eq hx.lt d
    rw [observe, events_operated, State.observe, hcells]
    rfl

end Operation

end IsAt

end World

/-! ### Passages -/

namespace Stage

/-- From every world at stage `s` of the program, `k` steps lead to one at stage `t`. -/
def Leads (program : List Char) (k : Nat) (s t : Stage) : Prop :=
  ∀ w : World, w.IsAt program s → ∃ u, w.steps k = (.ok (), u) ∧ u.IsAt program t

namespace Leads

variable {program : List Char} {j k e p : Nat} {s t r : Stage} {l : List Int} {x y : Observation}
  {c : Cell}

theorem refl (s : Stage) : Leads program 0 s s := fun w hw => ⟨w, rfl, hw⟩

theorem trans (h : Leads program j s t) (h' : Leads program k t r) : Leads program (j + k) s r := by
  intro w hw
  obtain ⟨v, hv, hat⟩ := h w hw
  obtain ⟨u, hu, hend⟩ := h' v hat
  refine ⟨u, ?_, hend⟩
  rw [World.steps_add, hv]
  exact hu

section Operators

variable (hx : x.Holds p c)
include hx

/-- One step, told by what the operator does and where the machine moves on to. -/
theorem of_work {o : Operator} (hi : program[e]? = some o.symbol)
    (h : ∀ v : World, v.IsAt program ⟨e, l, x⟩ → ∃ why u, o.work v c = (.ok why, u) ∧
      ∀ left, (u.completed left why).IsAt program t) :
    Leads program 1 ⟨e, l, x⟩ t := by
  intro w hw
  have hstarted := hw.started o c
  obtain ⟨why, u, hwork, hmoved⟩ := h _ hstarted
  have hnext : w.Next (u.completed (o.leavesFrame w.machine.toState) why) :=
    advance_eq_ok_iff.2 ⟨o, c, why, u, hw.instruction_eq hi, hw.cell_eq hx,
      (Operator.act_of_live hstarted.live).trans hwork, rfl⟩
  exact ⟨_, by rw [World.steps_succ_of_next hnext, World.steps], hmoved _⟩

/-- One step of an operator that changes what is to be seen and nothing else. -/
theorem of_change {o : Operator} (hi : program[e]? = some o.symbol)
    (h : ∀ v : World, v.IsAt program ⟨e, l, x⟩ → ∃ why u, o.work v c = (.ok why, u) ∧
      u.IsAt program ⟨e, l, y⟩) :
    Leads program 1 ⟨e, l, x⟩ ⟨e + 1, l, y⟩ := by
  refine of_work hx hi fun v hv => ?_
  obtain ⟨why, u, hwork, hu⟩ := h v hv
  exact ⟨why, u, hwork, fun left => hu.completed left why⟩

/-- One step of an operator that replaces the current cell. -/
theorem of_put {o : Operator} {d : Cell} (hi : program[e]? = some o.symbol)
    (h : ∀ v : World, o.work v c = (.ok none, v.withState { v.machine.toState with
      cells := (v.machine.put d).cells })) :
    Leads program 1 ⟨e, l, x⟩ ⟨e + 1, l, x.put p d⟩ := by
  refine of_change hx hi fun v hv => ⟨none, _, h v, { hv with observe_eq := ?_ }⟩
  obtain rfl : v.observe = x := hv.observe_eq
  have hput := State.cells_put (s := v.machine.toState) hx.pointer_eq hx.lt d
  exact congrArg (fun cells => { v.observe with cells }) hput

theorem advance (hi : program[e]? = some '>') :
    Leads program 1 ⟨e, l, x⟩ ⟨e + 1, l, { x with pointer := p + 1 }⟩ := by
  refine of_change hx (o := .advance) hi fun v hv => ?_
  obtain rfl : v.observe = x := hv.observe_eq
  have hpointer : v.machine.pointer = p := hx.pointer_eq
  have hlt : p < v.machine.cells.length := hx.lt
  refine ⟨none, v.withState { v.machine.toState with pointer := v.machine.pointer + 1 }, ?_,
    { hv with observe_eq := ?_ }⟩
  · rw [Operator.work, if_neg (by omega)]
  · rw [← hpointer]
    rfl

theorem retreat (hi : program[e]? = some '<') (hp : p ≠ 0) :
    Leads program 1 ⟨e, l, x⟩ ⟨e + 1, l, { x with pointer := p - 1 }⟩ := by
  refine of_change hx (o := .retreat) hi fun v hv => ?_
  obtain rfl : v.observe = x := hv.observe_eq
  have hpointer : v.machine.pointer = p := hx.pointer_eq
  refine ⟨none, v.withState { v.machine.toState with pointer := v.machine.pointer - 1 }, ?_,
    { hv with observe_eq := ?_ }⟩
  · rw [Operator.work, if_neg (by omega)]
  · rw [← hpointer]
    rfl

theorem setMode (hi : program[e]? = some '=') :
    Leads program 1 ⟨e, l, x⟩ ⟨e + 1, l, { x with mode := c }⟩ := by
  refine of_change hx (o := .setMode) hi fun v hv => ?_
  obtain rfl : v.observe = x := hv.observe_eq
  exact ⟨none, v.withState { v.machine.toState with mode := c }, rfl, { hv with observe_eq := rfl }⟩

/-- A loop is entered on anything but a zero. -/
theorem opening (hi : program[e]? = some '[') (hc : c ≠ Cell.zero) :
    Leads program 1 ⟨e, l, x⟩ ⟨e + 1, e :: l, x⟩ := by
  refine of_work hx (o := .beginLoop) hi fun v hv => ?_
  refine ⟨none, v.openLoop, by rw [Operator.work, if_neg hc], fun left => ?_⟩
  have hopen : v.openLoop.IsAt program ⟨e, e :: l, x⟩ :=
    { hv with
      loops_eq := by
        change v.machine.position :: v.machine.loops = _
        rw [hv.position_eq, hv.loops_eq]
      observe_eq := by
        rw [← hv.observe_eq]
        exact congrArg (v.machine.observe · v.lines) (v.events_noted _) }
  exact hopen.completed left none

/-- At its closing bracket a loop is taken up again, unless it stands at the beginning. -/
theorem closing {k : Nat} (hi : program[e]? = some ']') (hk : k ≠ 0) :
    Leads program 1 ⟨e, (k : Int) :: l, x⟩ ⟨k, l, x⟩ := by
  refine of_work hx (o := .endLoop) hi fun v hv => ?_
  have hloops : v.machine.loops = (k : Int) :: l := hv.loops_eq
  set u := v.withState { v.machine.toState with loops := l, target := some (k : Int) } with hu
  have hmove : moveOn u.machine.toState = { u.machine.toState with position := k, target := none } :=
    State.moveOn_eq_of_target_ne_zero rfl (by omega)
  refine ⟨none, u, ?_, fun left => ?_⟩
  · simp only [Operator.work, hloops]
    rfl
  · have hstate : (u.completed left none).machine.toState =
        { u.machine.toState with position := k, target := none } := hmove
    exact
      { program_eq := hv.program_eq
        position_eq := by rw [hstate]
        loops_eq := by rw [hstate]; rfl
        dead_eq := by rw [hstate]; exact hv.dead_eq
        target_eq := by rw [hstate]
        observe_eq := (u.observe_completed left none).trans hv.observe_eq }

/-- An operation without a fault that sets no target. -/
theorem operate {m : Mode} (hi : program[e]? = some '?') (hm : Mode.ofCell? x.mode = some m)
    (hf : (m.effect (situation ⟨e, l, x⟩ program c)).fault = none)
    (ht : (m.effect (situation ⟨e, l, x⟩ program c)).target = none) :
    Leads program 1 ⟨e, l, x⟩
      ⟨e + 1, l, x.after p (m.effect (situation ⟨e, l, x⟩ program c))⟩ := by
  intro w hw
  have hnext := World.next_of_operation? (hw.operation?_eq hx hi hm) (hw.cell_eq hx)
    (by rw [hw.situation_eq, hf])
  exact ⟨_, by rw [World.steps_succ_of_next hnext, World.steps],
    (hw.operated hx ht).completed m.leavesFrame none⟩

end Operators

section Numbers

variable {i : Nat} (hx : x.Holds p (.int i))
include hx

/-- Counting up stops at the largest byte. -/
theorem increment (hi : program[e]? = some '+') (hle : i ≤ 255) :
    Leads program 1 ⟨e, l, x⟩ ⟨e + 1, l, x.put p (.int (min 255 (i + 1) : Nat))⟩ := by
  by_cases hmax : i = 255
  · subst hmax
    rw [show (min 255 (255 + 1) : Nat) = 255 from rfl, hx.put_eq]
    exact of_change hx (o := .increment) hi fun v hv => ⟨some .cellIsMax, v, rfl, hv⟩
  · rw [Nat.min_eq_right (by omega)]
    refine of_put hx (o := .increment) hi fun v => ?_
    rw [Operator.work]
    exact if_neg (by simp only [State.byteMax]; omega)

theorem decrement (hi : program[e]? = some '-') (hpos : i ≠ 0) :
    Leads program 1 ⟨e, l, x⟩ ⟨e + 1, l, x.put p (.int (i - 1 : Nat))⟩ := by
  rw [show ((i - 1 : Nat) : Int) = (i : Int) - 1 by omega]
  refine of_put hx (o := .decrement) hi fun v => ?_
  rw [Operator.work]
  exact if_neg (by omega)

/-- Several times up. -/
theorem increments {n : Nat} (htext : List.replicate n '+' <+: program.drop e) (hle : i ≤ 255) :
    Leads program n ⟨e, l, x⟩ ⟨e + n, l, x.put p (.int (min 255 (i + n) : Nat))⟩ := by
  induction n generalizing e i x with
  | zero =>
    rw [Nat.add_zero, Nat.add_zero, Nat.min_eq_right hle, hx.put_eq]
    exact refl _
  | succ n ih =>
    rw [List.replicate_succ] at htext
    have hfirst := increment (l := l) hx (getElem?_of_prefix_drop htext) hle
    have hrest := ih (i := min 255 (i + 1)) (hx.put _) (prefix_drop_add_length (l := ['+']) htext)
      (by omega)
    rw [Observation.put_put, show min 255 (min 255 (i + 1) + n) = min 255 (i + (n + 1)) by omega,
      List.length_singleton, Nat.add_assoc, Nat.add_comm 1 n] at hrest
    rw [Nat.add_comm n 1] at hrest ⊢
    exact hfirst.trans hrest

/-- A number is written as its numeral. -/
theorem writeNumber (hi : program[e]? = some '?') (hm : x.mode = Cell.zero)
    (ho : x.lines.console.output = true) :
    Leads program 1 ⟨e, l, x⟩
      ⟨e + 1, l, { x with events := x.events ++ [.wrote .console (toString i)] }⟩ := by
  have heffect : Mode.consoleDecimalWrite.effect (situation ⟨e, l, x⟩ program (.int i)) =
      { buffer := x.buffer, lines := x.lines, entries :=
        [.event (.wrote .console (toString i)), .note (.writing (toString i))] } := by
    rw [Mode.effect, Situation.write, ← Cell.text_natCast]
    exact if_pos ho
  have hwrite := operate (l := l) (m := .consoleDecimalWrite) hx hi (by rw [hm]; rfl)
    (by rw [heffect]) (by rw [heffect])
  rw [heffect] at hwrite
  exact hwrite

end Numbers

section Loop

variable {body : List Operator} (hbody : ∀ o ∈ body, o.isBracket = false)
  (htext : '[' :: (body.map Operator.symbol ++ [']']) <+: program.drop e)

include htext in
theorem getElem?_closing : program[e + 1 + body.length]? = some ']' := by
  have hend := prefix_drop_add_length (prefix_drop_add_length (l := ['[']) htext)
  rw [List.length_map] at hend
  exact getElem?_of_prefix_drop hend

include hbody htext

/-- A loop without loops in it that is opened on a zero is skipped, operator by operator. -/
theorem skip (hx : x.Holds p Cell.zero) :
    Leads program (body.length + 2) ⟨e, l, x⟩ ⟨e + (body.length + 2), l, x⟩ := by
  intro w hw
  have hcell := hw.cell_eq hx
  have hprogram := hw.program_eq
  obtain ⟨u, hu, hul, hud⟩ := World.Idles.opening hcell (.inl hw.target_eq) rfl
    (hw.instruction_eq (getElem?_of_prefix_drop htext))
  have hdead : u.machine.deadDepth = 1 := by
    rw [hud, hw.dead_eq]
    rfl
  obtain ⟨v, hv, hvl, hvd⟩ := World.Idles.others (e := e + 1) hbody (hu.agree.cell_eq.trans hcell)
    (.inl (hu.target_eq.trans hw.target_eq)) (by rw [State.isDead, hdead]; rfl)
    (by rw [hu.position_eq, hw.position_eq]; rfl)
    (by
      rw [hu.agree.program_eq, hprogram]
      exact (List.prefix_append _ _).trans (prefix_drop_add_length (l := ['[']) htext))
  have huv := hu.trans hv
  obtain ⟨y, hy, hyl, hyd⟩ := World.Idles.closing (huv.agree.cell_eq.trans hcell)
    (.inl (huv.target_eq.trans hw.target_eq)) (by rw [State.isDead, hvd, hdead]; rfl)
    (hvl.trans hul) (huv.instruction_eq hw.position_eq (by
      rw [hprogram, ← Nat.add_assoc]
      exact getElem?_closing htext))
  have hall : w.Idles (body.length + 2) y := by
    have := huv.trans hy
    rwa [Nat.add_comm 1] at this
  refine ⟨y, hall.steps_eq, hw.idles hall (hyl.trans hw.loops_eq) ?_⟩
  rw [hyd, hvd, hdead]
  rfl

/-- **A counted loop.**  Let the current cell count the rounds that are left, and let each round be
passed straight.  Then the loop is passed in as many rounds and one more, which skips it. -/
theorem loop {m : Nat} {x : Nat → Observation} (he : m ≠ 0 → e ≠ 0)
    (hcell : ∀ n ≤ m, ∃ p, (x n).Holds p (.int n))
    (hround : ∀ n < m, Leads program body.length ⟨e + 1, e :: l, x (n + 1)⟩
      ⟨e + 1 + body.length, e :: l, x n⟩) :
    Leads program ((m + 1) * (body.length + 2)) ⟨e, l, x m⟩ ⟨e + (body.length + 2), l, x 0⟩ := by
  -- The induction is on the rounds that are left.  A loop at the beginning would not be taken up
  -- again, so `he` is needed as soon as there is a round.
  induction m with
  | zero =>
    obtain ⟨p, hp⟩ := hcell 0 (Nat.le_refl 0)
    rw [Nat.zero_add, Nat.one_mul]
    exact skip hbody htext hp
  | succ m ih =>
    obtain ⟨p, hp⟩ := hcell (m + 1) (Nat.le_refl _)
    obtain ⟨q, hq⟩ := hcell m (Nat.le_succ m)
    have hopen := opening (l := l) hp (getElem?_of_prefix_drop htext) (by
      intro h
      injection h with h
      omega)
    have hback := closing (l := l) hq (getElem?_closing htext) (he (Nat.succ_ne_zero m))
    have honce := (hopen.trans (hround m (Nat.lt_succ_self m))).trans hback
    have hrest := ih (fun _ => he (Nat.succ_ne_zero m)) (fun n hn => hcell n (by omega))
      (fun n hn => hround n (by omega))
    have hall := honce.trans hrest
    rw [show 1 + body.length + 1 + (m + 1) * (body.length + 2) = (m + 1 + 1) * (body.length + 2) by
      rw [Nat.succ_mul (m + 1)]
      omega] at hall
    exact hall

end Loop

end Leads

end Stage

/-! ### Whole runs -/

namespace Interpreter

/-- A run of the program comes to its end after `k` steps, each of which has left a frame, and `x` is
to be seen. -/
def CompletesIn (i : Interpreter) (program : String) (k : Nat) (x : Observation) : Prop :=
  ∃ r j, (∀ n, k ≤ n → i.run n program = some (r, j)) ∧ j.runCounter = i.runCounter + 1 ∧
    r.machine.frames.size = k ∧ r.machine.observe r.events j.lines = x

/-- After `k` steps of the program, each of which has left a frame, the next one ends in a fault, and
`x` is to be seen. -/
def StopsAfter (i : Interpreter) (program : String) (k : Nat) (f : Fault) (x : Observation) : Prop :=
  ∃ r j, (∀ n, k < n → i.run n program = some (r, j)) ∧ j.runCounter = i.runCounter ∧
    r.machine.frames.size = k ∧ r.machine.observe r.events j.lines = x ∧
    r.history.getLast? = some (.note (.stopped f))

end Interpreter

namespace Stage

/-- The beginning of a program on the lines of an interpreter. -/
def initial (i : Interpreter) (program : String) : Stage where
  position := 0
  loops := []
  seen := (World.load i.lines program).observe

theorem initial_eq (i : Interpreter) (program : String) :
    initial i program = ⟨0, [], .counters i.lines [] 0 0 0⟩ := rfl

namespace Leads

variable {i : Interpreter} {program : String} {k p : Nat} {s : Stage} {c : Cell}

theorem exists_of_initial (h : Leads program.toList k (initial i program) s) :
    ∃ u, (World.load i.lines program).steps k = (.ok (), u) ∧ u.IsAt program.toList s ∧
      u.machine.frames.size = k := by
  obtain ⟨u, hu, hat⟩ := h _ (World.load_isAt i.lines program)
  have hsize := (World.traced i.lines program k).size_eq (by rw [hu]; rfl)
  rw [hu] at hsize
  exact ⟨u, hu, hat, hsize⟩

/-- A passage to the end of the program. -/
theorem completesIn (h : Leads program.toList k (initial i program) s)
    (hend : s.position = program.toList.length) : i.CompletesIn program k s.seen := by
  obtain ⟨u, hu, hat, hsize⟩ := h.exists_of_initial
  have hfinished : u.machine.isFinished = true := by
    rw [Machine.isFinished, decide_eq_true_iff, Machine.size, hat.program_eq, hat.position_eq, hend]
  refine ⟨⟨u.machine, u.history⟩, ⟨u.lines, i.runCounter + 1⟩, fun n hn => ?_, rfl, hsize,
    hat.observe_eq⟩
  have hend : World.EndsAfter (World.load i.lines program) k u := ⟨hu, hfinished⟩
  rw [Interpreter.run, hend.run_of_le hn]

/-- A passage to an operation that ends in a fault. -/
theorem stopsAfter {m : Mode} {f : Fault} (h : Leads program.toList k (initial i program) s)
    (hx : s.seen.Holds p c) (hi : program.toList[s.position]? = some '?')
    (hm : Mode.ofCell? s.seen.mode = some m)
    (hf : (m.effect (s.situation program.toList c)).fault = some f)
    (ht : (m.effect (s.situation program.toList c)).target = none) :
    i.StopsAfter program k f (s.seen.after p (m.effect (s.situation program.toList c))) := by
  obtain ⟨u, hu, hat, hsize⟩ := h.exists_of_initial
  have hstop (j : Nat) : (World.load i.lines program).run (k + (j + 1)) =
      .stopped f (u.operated m c) := by
    rw [World.run_add_of_steps hu]
    exact World.run_of_operation? (hat.operation?_eq hx hi hm) (hat.cell_eq hx)
      (by rw [hat.situation_eq, hf]) j
  have hafter := (hat.operated hx ht).observe_eq
  refine ⟨⟨(u.operated m c).machine, (u.operated m c).history ++ [.note (.stopped f)]⟩,
    { i with lines := (u.operated m c).lines }, fun n hn => ?_, rfl, hsize, ?_, List.getLast?_concat⟩
  · obtain ⟨j, rfl⟩ : ∃ j, n = k + (j + 1) := ⟨n - k - 1, by omega⟩
    rw [Interpreter.run, hstop]
  · refine Eq.trans ?_ hafter
    rw [World.observe, Report.events, List.filterMap_append, World.events]
    exact congrArg ((u.operated m c).machine.observe · _) (List.append_nil _)

end Leads

end Stage

end TapeMachine
