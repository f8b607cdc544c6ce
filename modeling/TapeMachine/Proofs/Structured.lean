import TapeMachine.Proofs.Code
import TapeMachine.Proofs.Observation
import TapeMachine.Proofs.Soundness

/-!
# Loops are loops

The machine has no loops: it has a stack of positions, a count of skipped loops, and jumps to which
position zero is no target.  Here it is shown that a run which carries out no jump of its own
nevertheless does what its program says when read as a tree of operators and loops
(`Interpreter.run_iff_eval`): it comes to its end with the same tape, pointer, buffer, mode, events
and lines as the evaluation of the tree, or both end in the same fault, or neither ends.

The evaluation is followed by the machine part by part.  `World.Stands` relates a machine to the
world of the evaluation, and `World.Realizes` says what the machine does when a part has been
evaluated with a given verdict.  A bound on the evaluation that is used up costs the machine at
least as many steps, so a run that ends leaves the evaluation time to end as well.
-/

namespace TapeMachine

open Exec Relation

/-- In an evaluation an operator does what it does on a machine that is not dead. -/
theorem Operator.performAt_eq (o : Operator) (i : Nat) {v : World} {c : Cell}
    (hc : v.machine.cell = .ok c) (hlive : v.machine.isDead = false) :
    o.performAt i v = match o.work (v.atPosition i) c with
      | (.ok _, v') => .finished v'
      | (.error f, v') => .stopped f v' := by
  have hperform : o.perform.on (v.atPosition i) = o.outcome (v.atPosition i) c := o.on_perform hc
  have hact : o.act (v.atPosition i) c = o.work (v.atPosition i) c := act_of_live hlive
  rw [performAt, hperform, outcome, hact]
  rcases o.work (v.atPosition i) c with ⟨_ | _, _⟩ <;> rfl

namespace World

/-! ### A machine that follows an evaluation -/

/-- The machine stands at position `e` with the open loops `ls`, of which `d` are skipped, where an
evaluation has left the world `v`. -/
structure Stands (w : World) (e : Nat) (ls : List Int) (d : Int) (v : World) : Prop where
  position_eq : w.machine.position = e
  loops_eq : w.machine.loops = ls
  dead_eq : w.machine.deadDepth = d
  agree : w.Agree v
  /-- In an evaluation nothing is skipped. -/
  live : v.machine.isDead = false

/-- What holds of every machine in a run of the program without jumps. -/
structure Regular (program : List Char) (w : World) : Prop where
  program_eq : w.machine.program = program
  sound : w.machine.Sound w.machine.program
  tracks : ∃ e, w.machine.Tracks w.machine.program e
  jumpFree : w.JumpFree

variable {program : List Char} {w u v x : World} {e i : Nat} {ls : List Int} {d : Int} {c : Cell}

namespace Regular

theorem next (hw : w.Regular program) (hn : w.Next u) : u.Regular program where
  program_eq := (program_of_next hn).trans hw.program_eq
  sound := by
    rw [program_of_next hn]
    exact sound_of_ok hw.sound hn
  tracks := by
    obtain ⟨e, ht⟩ := hw.tracks
    exact tracks_of_plainNext ht ⟨hw.jumpFree.not_jumps, hn⟩
  jumpFree := hw.jumpFree.next hn

theorem tracks_at (hw : w.Regular program) (hp : w.machine.position = e) :
    w.machine.Tracks w.machine.program e := by
  obtain ⟨e', ht⟩ := hw.tracks
  have he : e' = e := Int.ofNat.inj (ht.position_eq.symm.trans hp)
  exact he ▸ ht

theorem target_eq (hw : w.Regular program) : w.machine.target = none := by
  obtain ⟨e, ht⟩ := hw.tracks
  exact ht.target_eq

/-- Behind the tape there is no cell. -/
theorem cell_eq_error (hw : w.Regular program) (hp : w.machine.pointer = State.tapeLength) :
    w.machine.cell = .error (.noCell .outside) := by
  have hlen := hw.sound.length_cells
  have hr : Index.resolve w.machine.cells.length w.machine.pointer = .error .outside := by
    rw [hlen, hp]
    decide
  simp only [State.cell, Index.get, hr]

/-- On the tape there is one. -/
theorem exists_cell (hw : w.Regular program) (hp : w.machine.pointer ≠ State.tapeLength) :
    ∃ c, w.machine.cell = .ok c := by
  have hlen := hw.sound.length_cells
  have hle := hw.sound.pointer_le
  obtain ⟨k, hk⟩ := Int.eq_ofNat_of_zero_le hw.sound.pointer_nonneg
  have hlt : k < w.machine.cells.length := by omega
  refine ⟨w.machine.cells[k], State.cell_eq_ok_iff.2 ?_⟩
  rw [hk]
  exact Index.get_natCast_eq_ok_iff.2 (List.getElem?_eq_getElem hlt)

theorem instruction_eq (hw : w.Regular program) {ch : Char} (hp : w.machine.position = i)
    (hi : program[i]? = some ch) : w.machine.instruction = .ok ch := by
  refine Machine.instruction_of_get ?_
  rw [hp, hw.program_eq]
  exact Index.get_natCast_eq_ok_iff.2 hi

theorem not_isFinished (hw : w.Regular program) {ch : Char} (hp : w.machine.position = i)
    (hi : program[i]? = some ch) : w.machine.isFinished = false := by
  have hlt := (List.getElem?_eq_some_iff.1 hi).1
  rw [Machine.isFinished, decide_eq_false_iff_not, hp, Machine.size, hw.program_eq]
  omega

end Regular

namespace Stands

theorem started (h : w.Stands e ls d v) (o : Operator) (c : Cell) :
    (w.started o c).Stands e ls d v :=
  { h with
    agree := { h.agree with
      events_eq := by
        change ((w.noted _).noted _).events = v.events
        rw [events_noted, events_noted, h.agree.events_eq] } }

theorem completed (h : w.Stands e ls d v) {p : Nat}
    (hm : moveOn w.machine.toState = { w.machine.toState with position := p, target := none })
    (left : Bool) (why : Option Idle) : (w.completed left why).Stands p ls d v := by
  unfold World.completed
  rw [hm]
  exact
    { h with
      position_eq := rfl
      agree := { h.agree with
        events_eq := by
          change (w.noted (.evaluated left)).events = v.events
          rw [events_noted, h.agree.events_eq] } }

theorem moveOn_eq (h : w.Stands e ls d v) (ht : w.machine.target = none) :
    moveOn w.machine.toState =
      { w.machine.toState with position := (e + 1 : Nat), target := none } := by
  rw [State.moveOn_eq_of_target_eq_none ht, h.position_eq, ← ht]
  rfl

theorem openLoop (h : w.Stands e ls d v) : w.openLoop.Stands e (e :: ls) d v :=
  { h with
    loops_eq := by
      change w.machine.position :: w.machine.loops = _
      rw [h.position_eq, h.loops_eq]
    agree := { h.agree with
      events_eq := by
        change (w.noted _).events = v.events
        rw [events_noted, h.agree.events_eq] } }

theorem openDeadLoop (h : w.Stands e ls d v) : w.openDeadLoop.Stands e (e :: ls) (d + 1) v :=
  { h.openLoop with
    dead_eq := congrArg (· + 1) h.dead_eq
    agree := { h.openLoop.agree with } }

theorem act_eq_skip (h : w.Stands e ls d v) (hd : d ≠ 0) (o : Operator) (c : Cell) :
    o.act w c = o.skip w := by
  refine Operator.act_of_dead ?_
  rw [State.isDead, h.dead_eq]
  exact bne_iff_ne.2 hd

theorem act_eq_work (h : w.Stands e ls 0 v) (o : Operator) (c : Cell) :
    o.act w c = o.work w c := by
  refine Operator.act_of_live ?_
  rw [State.isDead, h.dead_eq]
  rfl

/-! ### The machine's steps -/

section Step

variable (hw : w.Regular program) (h : w.Stands i ls d v) (hc : v.machine.cell = .ok c)
include hw h hc

/-- An operator that acts makes a step. -/
theorem next_of_act {o : Operator} (hi : program[i]? = some o.symbol) (why : Option Idle)
    (ha : o.act (w.started o c) c = (.ok why, x)) {ps : List Int} {k : Int} {v' : World}
    (hx : x.Stands i ps k v') {p : Nat}
    (hm : moveOn x.machine.toState = { x.machine.toState with position := p, target := none }) :
    ∃ u, w.Next u ∧ u.Stands p ps k v' := by
  have hi := hw.instruction_eq h.position_eq hi
  exact ⟨_, advance_eq_ok_iff.2 ⟨o, c, why, x, hi, h.agree.cell_eq.trans hc, ha, rfl⟩,
    hx.completed hm _ _⟩

/-- An operator other than a bracket is skipped. -/
theorem skip_other (hd : d ≠ 0) {o : Operator} (hb : o.isBracket = false)
    (hi : program[i]? = some o.symbol) : ∃ u, w.Next u ∧ u.Stands (i + 1) ls d v := by
  have hs := h.started o c
  refine h.next_of_act hw hc hi (some .dead) ?_ hs (hs.moveOn_eq hw.target_eq)
  rw [hs.act_eq_skip hd, Operator.skip_eq_of_not_isBracket hb]

/-- A loop inside a skipped one is skipped. -/
theorem skip_open (hd : d ≠ 0) (hi : program[i]? = some '[') :
    ∃ u, w.Next u ∧ u.Stands (i + 1) (i :: ls) (d + 1) v := by
  have hs := h.started .beginLoop c
  refine h.next_of_act hw hc (o := .beginLoop) hi (some .deadLoopBegun) ?_ hs.openDeadLoop
    (hs.openDeadLoop.moveOn_eq hw.target_eq)
  rw [hs.act_eq_skip hd, Operator.skip]

/-- A skipped loop is closed. -/
theorem skip_close {p : Int} (hd : d ≠ 0) (hi : program[i]? = some ']') {ps : List Int}
    (hl : ls = p :: ps) : ∃ u, w.Next u ∧ u.Stands (i + 1) ps (d - 1) v := by
  have hs := h.started .endLoop c
  set x := w.started .endLoop c
  have hx : (x.withState { x.machine.toState with
      loops := ps, deadDepth := x.machine.deadDepth - 1 }).Stands i ps (d - 1) v :=
    { hs with
      loops_eq := rfl
      dead_eq := congrArg (· - 1) hs.dead_eq
      agree := { hs.agree with } }
  refine h.next_of_act hw hc (o := .endLoop) hi (some .deadLoopEnded) ?_ hx
    (hx.moveOn_eq hw.target_eq)
  rw [hs.act_eq_skip hd, Operator.skip]
  simp only [hs.loops_eq, hl]

end Step

section LiveStep

variable (hw : w.Regular program) (h : w.Stands i ls 0 v) (hc : v.machine.cell = .ok c)
include hw h hc

/-- A loop is skipped on a zero. -/
theorem open_of_zero (hz : c = Cell.zero) (hi : program[i]? = some '[') :
    ∃ u, w.Next u ∧ u.Stands (i + 1) (i :: ls) 1 v := by
  have hs := h.started .beginLoop c
  refine h.next_of_act hw hc (o := .beginLoop) hi (some .deadLoopBegun) ?_ hs.openDeadLoop
    (hs.openDeadLoop.moveOn_eq hw.target_eq)
  rw [hs.act_eq_work, Operator.work, if_pos hz]

/-- A loop is entered on anything but a zero. -/
theorem open_of_ne_zero (hz : c ≠ Cell.zero) (hi : program[i]? = some '[') :
    ∃ u, w.Next u ∧ u.Stands (i + 1) (i :: ls) 0 v := by
  have hs := h.started .beginLoop c
  refine h.next_of_act hw hc (o := .beginLoop) hi none ?_ hs.openLoop
    (hs.openLoop.moveOn_eq hw.target_eq)
  rw [hs.act_eq_work, Operator.work, if_neg hz]

/-- At its closing bracket the machine goes back to the bracket that opened the loop. -/
theorem close_live {k : Nat} {ps : List Int} (hl : ls = (k : Int) :: ps)
    (hi : program[i]? = some ']') :
    ∃ u, w.Next u ∧ u.Stands k ps 0 v := by
  have hs := h.started .endLoop c
  set x := w.started .endLoop c
  have ht : x.machine.Tracks x.machine.program i := { hw.tracks_at h.position_eq with }
  have hlive : x.machine.isDead = false := by rw [State.isDead, hs.dead_eq]; rfl
  obtain ⟨-, -, -, -, hm, -⟩ := ht.closeLoop hlive (hs.loops_eq.trans hl)
  have hx : (x.withState { x.machine.toState with
      loops := ps, target := some (k : Int) }).Stands i ps 0 v :=
    { hs with
      loops_eq := rfl
      agree := { hs.agree with } }
  refine h.next_of_act hw hc (o := .endLoop) hi none ?_ hx hm
  rw [hs.act_eq_work, Operator.work]
  simp only [hs.loops_eq, hl]

end LiveStep

end Stands

theorem Regular.reaches (hw : w.Regular program) (h : ReflTransGen Next w u) :
    u.Regular program := by
  induction h with
  | refl => exact hw
  | tail _ hn ih => exact ih.next hn

/-! ### What the machine does when a part of the program has been evaluated -/

/-- The machine does what the evaluation of a part of the program says: it comes to the end of the
part, position `e`, or it ends in the same fault; where the evaluation was cut short it makes at
least `n` steps. -/
def Realizes (n : Nat) (w : World) (e : Nat) (ls : List Int) : Verdict → Prop
  | .finished v => ∃ u, ReflTransGen Next w u ∧ u.Stands e ls 0 v
  | .stopped f _ => ∃ u u', ReflTransGen Next w u ∧ u.machine.isFinished = false ∧
      advance.on u = (.error f, u')
  | .unfinished _ => ∃ k u, n ≤ k ∧ w.steps k = (.ok (), u)

namespace Realizes

variable {n m : Nat} {r : Verdict} {ps : List Int}

theorem mono (h : w.Realizes n e ls r) (hm : m ≤ n) : w.Realizes m e ls r := by
  cases r with
  | finished v => exact h
  | stopped f v => exact h
  | unfinished v =>
    obtain ⟨k, u, hk, hs⟩ := h
    exact ⟨k, u, hm.trans hk, hs⟩

theorem of_next (hn : w.Next u) (h : u.Realizes n e ls r) : w.Realizes (n + 1) e ls r := by
  cases r with
  | finished v =>
    obtain ⟨x, hr, hx⟩ := h
    exact ⟨x, .head hn hr, hx⟩
  | stopped f v =>
    obtain ⟨x, x', hr, hx⟩ := h
    exact ⟨x, x', .head hn hr, hx⟩
  | unfinished v =>
    obtain ⟨k, x, hk, hs⟩ := h
    exact ⟨k + 1, x, Nat.succ_le_succ hk, (steps_succ_of_next hn k).trans hs⟩

theorem of_reaches (hr : ReflTransGen Next w u) (h : u.Realizes n e ls r) :
    w.Realizes n e ls r := by
  induction hr using ReflTransGen.head_induction_on with
  | refl => exact h
  | head hn _ ih => exact (of_next hn ih).mono (Nat.le_succ n)

/-- One part of the program after another. -/
theorem andThen {g : World → Verdict} (hw : w.Regular program) (h : w.Realizes n i ps r)
    (hg : ∀ u v : World, u.Regular program → u.Stands i ps 0 v → u.Realizes n e ls (g v)) :
    w.Realizes n e ls (r.andThen g) := by
  cases r with
  | finished v =>
    obtain ⟨u, hr, hu⟩ := h
    exact of_reaches hr (hg u v (hw.reaches hr) hu)
  | stopped f v => exact h
  | unfinished v => exact h

/-- Behind the tape, an operator at the position ends in a fault, and on the tape it has a cell. -/
theorem onTape {g : World → Verdict} {o : Operator} {d : Int} (hw : w.Regular program)
    (hst : w.Stands i ps d v) (hi : program[i]? = some o.symbol)
    (h : ∀ c, v.machine.pointer ≠ State.tapeLength → v.machine.cell = .ok c →
      w.Realizes n e ls (g v)) :
    w.Realizes n e ls (World.onTape g v) := by
  unfold World.onTape
  split
  · rename_i hp
    rw [← hst.agree.pointer_eq] at hp
    have hinstr := hw.instruction_eq hst.position_eq hi
    exact ⟨w, _, .refl, hw.not_isFinished hst.position_eq hi,
      advance_eq_error_iff.2 (.inr (.inl ⟨o.symbol, hinstr, rfl, .inr ⟨by simp,
        hw.cell_eq_error hp⟩⟩))⟩
  · rename_i hp
    obtain ⟨c, hc⟩ := hw.exists_cell (hst.agree.pointer_eq ▸ hp)
    exact h c hp (hst.agree.cell_eq ▸ hc)

/-- An operator other than a bracket. -/
theorem performAt (hw : w.Regular program) (hst : w.Stands i ls 0 v) {o : Operator}
    (hb : o.isBracket = false) (hi : program[i]? = some o.symbol) (n : Nat) :
    w.Realizes n (i + 1) ls (World.onTape (o.performAt i) v) := by
  refine onTape hw hst hi fun c hp hc => ?_
  have hs := hst.started o c
  have hagree : (w.started o c).Agree (v.atPosition i) := { hs.agree with }
  obtain ⟨hr, hxy⟩ := Operator.work_agree hb hagree hs.position_eq c
  have hinstr := hw.instruction_eq hst.position_eq hi
  have hcell := hst.agree.cell_eq.trans hc
  -- No jump is carried out, so neither side changes where it goes.
  have hj : o = .operate → ∀ m, Mode.ofCell? w.machine.mode = some m → m.isJump = false := by
    rintro rfl m hm
    have hlive : w.machine.isDead = false := by rw [State.isDead, hst.dead_eq]; rfl
    exact Machine.not_isJump_of_not_jumps hw.jumpFree.not_jumps hlive hinstr hcell hm
  rw [o.performAt_eq i hc hst.live]
  rcases hx : o.work (w.started o c) c with ⟨r, x⟩
  rcases hy : o.work (v.atPosition i) c with ⟨r', y⟩
  rw [hx, hy] at hr hxy
  obtain rfl : r = r' := hr
  have hcx := Operator.work_sameControl (w := w.started o c) hb hj hx
  have hcy := Operator.work_sameControl (w := v.atPosition i) hb (hst.agree.mode_eq ▸ hj) hy
  have ha := (hs.act_eq_work o c).trans hx
  cases r with
  | error f =>
    exact ⟨w, x, .refl, hw.not_isFinished hst.position_eq hi,
      advance_eq_error_iff.2 (.inr (.inr ⟨o, c, hinstr, hcell, ha⟩))⟩
  | ok why =>
    have hxs : x.Stands i ls 0 y :=
      { position_eq := hcx.position_eq.trans hs.position_eq
        loops_eq := hcx.loops_eq.trans hs.loops_eq
        dead_eq := hcx.dead_eq.trans hs.dead_eq
        agree := hxy
        live := by
          rw [State.isDead, hcy.dead_eq]
          exact hst.live }
    obtain ⟨u, hn, hu⟩ := hst.next_of_act hw hc hi why ha hxs
      (hxs.moveOn_eq (hcx.target_eq.trans hw.target_eq))
    exact ⟨u, .single hn, hu⟩

end Realizes

end World

/-! ### Texts in the program -/

section Segment

variable {program l : List Char} {i : Nat} {c : Char}

theorem getElem?_of_prefix_drop (h : c :: l <+: program.drop i) : program[i]? = some c := by
  obtain ⟨t, ht⟩ := h
  rw [← Nat.add_zero i, ← List.getElem?_drop, ← ht]
  rfl

theorem prefix_drop_add_length {r : List Char} (h : l ++ r <+: program.drop i) :
    r <+: program.drop (i + l.length) := by
  obtain ⟨t, ht⟩ := h
  refine ⟨t, ?_⟩
  rw [← List.drop_drop, ← ht, List.append_assoc, List.drop_left]

end Segment

namespace Code

open World

variable {program : List Char} {w v : World} {i : Nat} {ls : List Int} {d : Int} {c : Cell}

/-- Where the text of a loop stands, its brackets and the texts of its parts stand. -/
theorem of_prefix_loop {body rest : Code} (h : (loop body rest).text <+: program.drop i) :
    program[i]? = some '[' ∧ body.text <+: program.drop (i + 1) ∧
      program[i + 1 + body.text.length]? = some ']' ∧
      rest.text <+: program.drop (i + body.text.length + 2) := by
  have hin : body.text ++ ']' :: rest.text <+: program.drop (i + 1) :=
    prefix_drop_add_length (l := ['[']) h
  have hclose := prefix_drop_add_length hin
  have hrest : rest.text <+: program.drop (i + 1 + body.text.length + 1) :=
    prefix_drop_add_length (l := [']']) hclose
  refine ⟨getElem?_of_prefix_drop h, (List.prefix_append _ _).trans hin,
    getElem?_of_prefix_drop hclose, ?_⟩
  rwa [show i + body.text.length + 2 = i + 1 + body.text.length + 1 by omega]

/-! ### Skipping -/

/-- A machine that skips a loop passes over any part of its body. -/
theorem exists_reaches_of_dead (t : Code) (hw : w.Regular program) (hst : w.Stands i ls d v)
    (hd : 0 < d) (hc : v.machine.cell = .ok c) (h : t.text <+: program.drop i) :
    ∃ u, ReflTransGen Next w u ∧ u.Stands (i + t.text.length) ls d v := by
  induction t generalizing w i ls d with
  | done => exact ⟨w, .refl, hst⟩
  | op o rest ih =>
    obtain ⟨u, hn, hu⟩ := hst.skip_other hw hc (by omega) o.2 (getElem?_of_prefix_drop h)
    have hrest := prefix_drop_add_length (l := [o.1.symbol]) h
    obtain ⟨x, hr, hx⟩ := ih (hw.next hn) hu hd hrest
    refine ⟨x, .head hn hr, ?_⟩
    rwa [add_length_op]
  | loop body rest ihb ihr =>
    obtain ⟨hopen, hbody, hclose, hrest⟩ := of_prefix_loop h
    -- The loop is put on the stack and taken off again, and in between one more loop is skipped.
    obtain ⟨u, hn, hu⟩ := hst.skip_open hw hc (by omega) hopen
    obtain ⟨x, hr, hx⟩ := ihb (hw.next hn) hu (by omega) hbody
    have hwx := (hw.next hn).reaches hr
    obtain ⟨y, hm, hy⟩ := hx.skip_close hwx hc (by omega) hclose rfl
    rw [Int.add_sub_cancel, show i + 1 + body.text.length + 1 = i + body.text.length + 2 by omega]
      at hy
    obtain ⟨z, hs, hz⟩ := ihr (hwx.next hm) hy hd hrest
    refine ⟨z, .head hn (hr.trans (.head hm hs)), ?_⟩
    rwa [add_length_loop]

section Loop

variable {body : Code} (hopen : program[i]? = some '[')
  (htext : body.text <+: program.drop (i + 1))
  (hclose : program[i + 1 + body.text.length]? = some ']')
include hopen htext hclose

/-- On a zero the machine passes over a loop. -/
theorem exists_reaches_of_zero (hw : w.Regular program) (hst : w.Stands i ls 0 v)
    (hc : v.machine.cell = .ok Cell.zero) :
    ∃ u, ReflTransGen Next w u ∧ u.Stands (i + body.text.length + 2) ls 0 v := by
  obtain ⟨u, hn, hu⟩ := hst.open_of_zero hw hc rfl hopen
  obtain ⟨x, hr, hx⟩ := body.exists_reaches_of_dead (hw.next hn) hu (by decide) hc htext
  obtain ⟨y, hm, hy⟩ := hx.skip_close ((hw.next hn).reaches hr) hc (by decide) hclose rfl
  refine ⟨y, .head hn (hr.trans (.single hm)), ?_⟩
  rwa [show i + body.text.length + 2 = i + 1 + body.text.length + 1 by omega]

/-! ### Repeating -/

/-- At the opening bracket of a loop only the round that follows is left to be looked at. -/
theorem realizes_of_round {m : Nat} {round : World → Verdict} (hw : w.Regular program)
    (hst : w.Stands i ls 0 v)
    (hr : ∀ c, v.machine.cell = .ok c → c ≠ Cell.zero →
      w.Realizes m (i + body.text.length + 2) ls (round v)) :
    w.Realizes m (i + body.text.length + 2) ls
      (onTape (fun w => if w.atZero then .finished w else round w) v) := by
  refine Realizes.onTape (o := .beginLoop) hw hst hopen fun c _ hc => ?_
  have hz : v.atZero = decide (c = Cell.zero) := by simp only [atZero, hc]
  by_cases hcz : c = Cell.zero
  · subst hcz
    rw [hz, decide_eq_true rfl, if_pos rfl]
    exact exists_reaches_of_zero hopen htext hclose hw hst hc
  · rw [hz, decide_eq_false hcz, if_neg Bool.false_ne_true]
    exact hr c hc hcz

/-- The machine repeats the body of a loop as often as the evaluation does. -/
theorem repeatWhile_realizes {n : Nat}
    (hbody : ∀ u v : World, u.Regular program → u.Stands (i + 1) (i :: ls) 0 v →
      u.Realizes n (i + 1 + body.text.length) (i :: ls) (body.eval n (i + 1) v))
    {m : Nat} (hmn : m ≤ n) (hw : w.Regular program) (hst : w.Stands i ls 0 v) :
    w.Realizes m (i + body.text.length + 2) ls (repeatWhile (body.eval n (i + 1)) m v) := by
  induction m generalizing w v with
  | zero => exact realizes_of_round hopen htext hclose hw hst fun _ _ _ => ⟨0, w, Nat.le_refl 0, rfl⟩
  | succ m ih =>
    refine realizes_of_round hopen htext hclose hw hst fun c hc hz => ?_
    obtain ⟨u, hn, hu⟩ := hst.open_of_ne_zero hw hc hz hopen
    have hwu := hw.next hn
    -- The step over the opening bracket pays for the round.
    refine Realizes.of_next hn (Realizes.andThen hwu
      ((hbody u v hwu hu).mono (Nat.le_of_succ_le hmn)) fun x v' hwx hx => ?_)
    refine Realizes.onTape (o := .endLoop) hwx hx hclose fun c _ hc => ?_
    obtain ⟨y, hm, hy⟩ := hx.close_live hwx hc rfl hclose
    exact (Realizes.of_next hm (ih (Nat.le_of_succ_le hmn) (hwx.next hm) hy)).mono (Nat.le_succ m)

end Loop

/-- **The machine does what the evaluation of a tree says** that stands in its program. -/
theorem eval_realizes (t : Code) (n : Nat) (hw : w.Regular program) (hst : w.Stands i ls 0 v)
    (h : t.text <+: program.drop i) :
    w.Realizes n (i + t.text.length) ls (t.eval n i v) := by
  induction t generalizing w v i ls with
  | done => exact ⟨w, .refl, hst⟩
  | op o rest ih =>
    have hrest := prefix_drop_add_length (l := [o.1.symbol]) h
    rw [add_length_op]
    refine (Realizes.performAt hw hst o.2 (getElem?_of_prefix_drop h) n).andThen hw
      fun u v' hwu hu => ih hwu hu hrest
  | loop body rest ihb ihr =>
    obtain ⟨hopen, htext, hclose, hrest⟩ := of_prefix_loop h
    rw [add_length_loop]
    refine Realizes.andThen hw (repeatWhile_realizes hopen htext hclose
      (fun u v' hwu hu => ihb hwu hu htext) (Nat.le_refl n) hw hst)
      fun u v' hwu hu => ihr hwu hu hrest

end Code

/-! ### Runs of programs -/

namespace World

theorem load_regular {lines : Lines} {program : String} (h : (load lines program).JumpFree) :
    (load lines program).Regular program.toList where
  program_eq := rfl
  sound := State.initial_sound _
  tracks := ⟨0, State.initial_tracks _⟩
  jumpFree := h

theorem load_stands (lines : Lines) (program : String) :
    (load lines program).Stands 0 [] 0 (load lines program) where
  position_eq := rfl
  loops_eq := rfl
  dead_eq := rfl
  agree := .rfl
  live := rfl

end World

namespace Verdict

/-- Both came to their end and the same can be seen of them, or both ended in the same fault. -/
def Matches : Verdict → Verdict → Prop
  | .finished w, .finished v => w.observe = v.observe
  | .stopped f _, .stopped g _ => f = g
  | _, _ => False

namespace Matches

variable {r : Verdict}

theorem symm {s : Verdict} (h : r.Matches s) : s.Matches r := by
  cases r with
  | finished w =>
    cases s with
    | finished v => exact Eq.symm h
    | stopped f v | unfinished v => exact h.elim
  | stopped f w =>
    cases s with
    | stopped g v => exact Eq.symm h
    | finished v | unfinished v => exact h.elim
  | unfinished w => exact h.elim

theorem of_finished {v : World} (h : r.Matches (.finished v)) :
    ∃ w, r = .finished w ∧ w.observe = v.observe := by
  cases r with
  | finished w => exact ⟨w, rfl, h⟩
  | stopped f w | unfinished w => exact h.elim

theorem of_stopped {f : Fault} {v : World} (h : r.Matches (.stopped f v)) :
    ∃ w, r = .stopped f w := by
  cases r with
  | stopped g w =>
    obtain rfl : g = f := h
    exact ⟨w, rfl⟩
  | finished w | unfinished w => exact h.elim

end Matches

end Verdict

namespace Code

open World

variable {t : Code} {lines : Lines} {program : String}

/-- The tree comes to its end when it is evaluated, with `x` to be seen. -/
def Completes (t : Code) (w : World) (x : Observation) : Prop :=
  ∃ n v, t.eval n 0 w = .finished v ∧ v.observe = x

/-- The evaluation of the tree ends in a fault. -/
def Fails (t : Code) (w : World) (f : Fault) : Prop := ∃ n v, t.eval n 0 w = .stopped f v

section

variable (ht : t.text = program.toList) (h : (load lines program).JumpFree)
include ht h

theorem load_realizes (n : Nat) : (load lines program).Realizes n program.toList.length []
    (t.eval n 0 (load lines program)) := by
  have htext : t.text <+: program.toList.drop 0 :=
    ⟨[], by rw [List.append_nil, List.drop_zero, ht]⟩
  have := t.eval_realizes n (load_regular h) (load_stands lines program) htext
  rwa [Nat.zero_add, ht] at this

/-- Where the evaluation ends, the run ends in the same way. -/
theorem exists_run_matches {n : Nat}
    (hn : ∀ v, t.eval n 0 (load lines program) ≠ .unfinished v) :
    ∃ m, ((load lines program).run m).Matches (t.eval n 0 (load lines program)) := by
  have hr := load_realizes ht h n
  cases hv : t.eval n 0 (load lines program) with
  | finished v =>
    rw [hv] at hr
    obtain ⟨u, hreach, hu⟩ := hr
    have hprog := ((load_regular h).reaches hreach).program_eq
    have hf : u.machine.isFinished = true := by
      rw [Machine.isFinished, decide_eq_true_iff, Machine.size, hprog, hu.position_eq]
    obtain ⟨k, hk⟩ := exists_run_add hreach
    refine ⟨k + 0, ?_⟩
    rw [hk, run_of_isFinished hf]
    exact hu.agree.observe_eq
  | stopped f v =>
    rw [hv] at hr
    obtain ⟨u, u', hreach, hf, ha⟩ := hr
    obtain ⟨k, hk⟩ := exists_run_add hreach
    refine ⟨k + 1, ?_⟩
    rw [hk, run, hf, ha]
    exact Eq.refl f
  | unfinished v => exact absurd hv (hn v)

/-- Where the run ends, the evaluation ends in the same way, if it may repeat a loop once more than
the run has steps. -/
theorem exists_eval_matches {n : Nat} (hn : ∀ v, (load lines program).run n ≠ .unfinished v) :
    ∃ m, ((load lines program).run n).Matches (t.eval m 0 (load lines program)) := by
  have hended (v : World) : t.eval (n + 1) 0 (load lines program) ≠ .unfinished v := by
    intro hv
    have hr := load_realizes ht h (n + 1)
    rw [hv] at hr
    obtain ⟨k, u, hk, hs⟩ := hr
    obtain ⟨x, hx⟩ := exists_run_eq_unfinished hs hk
    exact hn x hx
  obtain ⟨m, hm⟩ := exists_run_matches ht h hended
  have hsame : (load lines program).run n = (load lines program).run m := by
    refine run_unique hn fun v hv => ?_
    rw [hv] at hm
    exact hm
  exact ⟨n + 1, hsame ▸ hm⟩

theorem completes_iff {x : Observation} : t.Completes (load lines program) x ↔
    ∃ n w, (load lines program).run n = .finished w ∧ w.observe = x := by
  constructor
  · rintro ⟨n, v, hv, rfl⟩
    obtain ⟨m, hm⟩ := exists_run_matches ht h (n := n) (by rw [hv]; rintro _ ⟨⟩)
    rw [hv] at hm
    obtain ⟨w, hw, hobs⟩ := hm.of_finished
    exact ⟨m, w, hw, hobs⟩
  · rintro ⟨n, w, hw, rfl⟩
    obtain ⟨m, hm⟩ := exists_eval_matches ht h (n := n) (by rw [hw]; rintro _ ⟨⟩)
    rw [hw] at hm
    obtain ⟨v, hv, hobs⟩ := hm.symm.of_finished
    exact ⟨m, v, hv, hobs⟩

theorem fails_iff {f : Fault} : t.Fails (load lines program) f ↔
    ∃ n w, (load lines program).run n = .stopped f w := by
  constructor
  · rintro ⟨n, v, hv⟩
    obtain ⟨m, hm⟩ := exists_run_matches ht h (n := n) (by rw [hv]; rintro _ ⟨⟩)
    rw [hv] at hm
    exact ⟨m, hm.of_stopped⟩
  · rintro ⟨n, w, hw⟩
    obtain ⟨m, hm⟩ := exists_eval_matches ht h (n := n) (by rw [hw]; rintro _ ⟨⟩)
    rw [hw] at hm
    exact ⟨m, hm.symm.of_stopped⟩

end

end Code

namespace Interpreter

open World

variable {i : Interpreter} {program : String}

/-- A run of the program comes to its end, with `x` to be seen. -/
def Completes (i : Interpreter) (program : String) (x : Observation) : Prop :=
  ∃ n r j, i.run n program = some (r, j) ∧ j.runCounter = i.runCounter + 1 ∧
    r.machine.observe r.events j.lines = x

/-- A run of the program ends in a fault, which is the last thing noted. -/
def Fails (i : Interpreter) (program : String) (f : Fault) : Prop :=
  ∃ n r j, i.run n program = some (r, j) ∧ j.runCounter = i.runCounter ∧
    r.history.getLast? = some (.note (.stopped f))

theorem completes_iff {x : Observation} : i.Completes program x ↔
    ∃ n w, (load i.lines program).run n = .finished w ∧ w.observe = x := by
  constructor
  · rintro ⟨n, r, j, hr, hj, hx⟩
    unfold run at hr
    split at hr <;> cases hr
    · exact ⟨n, _, ‹_›, hx⟩
    · exact absurd hj (Nat.succ_ne_self _).symm
  · rintro ⟨n, w, hw, hx⟩
    have hrun : i.run n program = some (⟨w.machine, w.history⟩,
        { lines := w.lines, runCounter := i.runCounter + 1 }) := by
      rw [run, hw]
    exact ⟨n, _, _, hrun, rfl, hx⟩

theorem fails_iff {f : Fault} : i.Fails program f ↔
    ∃ n w, (load i.lines program).run n = .stopped f w := by
  constructor
  · rintro ⟨n, r, j, hr, hj, hf⟩
    unfold run at hr
    split at hr <;> cases hr
    · exact absurd hj (Nat.succ_ne_self _)
    · rename_i w hw
      rw [List.getLast?_concat] at hf
      cases hf
      exact ⟨n, w, hw⟩
  · rintro ⟨n, w, hw⟩
    have hrun : i.run n program = some (⟨w.machine, w.history ++ [.note (.stopped f)]⟩,
        { i with lines := w.lines }) := by
      rw [run, hw]
    exact ⟨n, _, _, hrun, rfl, List.getLast?_concat⟩

/-- **Loops are loops.**  Let a program consist of operators only, let its brackets balance, and let
no operation that sets the position be carried out in its run.  Then it is the text of exactly one
tree, and the run ends as the evaluation of the tree does: with the same tape, pointer, buffer,
mode, events and lines, or in the same fault, or not at all. -/
theorem run_iff_eval (i : Interpreter) (program : String)
    (hops : ∀ c ∈ program.toList, (Operator.ofSymbol? c).isSome)
    (hb : Brackets.Balanced program.toList) (hj : (load i.lines program).JumpFree) :
    ∃ t : Code, t.text = program.toList ∧ (∀ u : Code, u.text = program.toList → u = t) ∧
      (∀ x, i.Completes program x ↔ t.Completes (load i.lines program) x) ∧
      ∀ f, i.Fails program f ↔ t.Fails (load i.lines program) f := by
  obtain ⟨t, ht⟩ := Code.exists_text_eq hops hb
  refine ⟨t, ht, fun u hu => Code.text_injective (hu.trans ht.symm), fun x => ?_, fun f => ?_⟩
  · rw [completes_iff, Code.completes_iff ht hj]
  · rw [fails_iff, Code.fails_iff ht hj]

/-- A loop in a loop, entered twice, that writes the current cell on the console. -/
theorem run_iff_eval_nested :
    let i : Interpreter := { lines := { console := { output := true } } }
    let program := "++[>+[?-]<-]"
    (∀ c ∈ program.toList, (Operator.ofSymbol? c).isSome) ∧ Brackets.Balanced program.toList ∧
      (load i.lines program).JumpFree ∧
      ∃ t : Code, t.text = program.toList ∧ (∀ u : Code, u.text = program.toList → u = t) ∧
        (∀ x, i.Completes program x ↔ t.Completes (load i.lines program) x) ∧
        ∀ f, i.Fails program f ↔ t.Fails (load i.lines program) f := by
  intro i program
  have hops : ∀ c ∈ program.toList, (Operator.ofSymbol? c).isSome :=
    List.all_eq_true.1 (by decide)
  have hb : Brackets.Balanced program.toList := by decide +kernel
  have hj : (load i.lines program).JumpFree :=
    jumpFree_of_failsBeforeJump (n := 60) (by decide +kernel)
  exact ⟨hops, hb, hj, run_iff_eval i program hops hb hj⟩

end Interpreter

end TapeMachine
