import TapeMachine.Proofs.Observation
import TapeMachine.Proofs.Stepping

/-!
# Loops that are skipped

A loop that is opened on a zero is skipped, but the machine does not jump over it: it goes through
the loop operator by operator and does nothing, except that it counts the brackets.  Every opening
bracket is put on the stack of loops and counted, every closing one takes the last off and counts
back.  The two stay in step through all nesting: at each position of the skipped loop the count is
the height of the position above that of the loop, and as many loops stand on top of those that were
open before (`World.Idles.exists_of_stays`).  So the machine is alive again exactly behind the
bracket that closes the loop, with the stack as it was (`World.dead_loop_skipped`).
-/

namespace TapeMachine

open Brackets Exec

theorem State.moveOn_eq_of_no_target {s : State} (h : s.target = none ∨ s.target = some 0) :
    moveOn s = { s with position := s.position + 1 } := by
  obtain h | h := h
  · exact moveOn_eq_of_target_eq_none h
  · unfold moveOn
    rw [h]
    rfl

/-- In a part of a text that consists of operators there is an operator at each position. -/
theorem Operator.exists_of_extract {cs : List Char} {a b l : Nat}
    (h : ∀ ch ∈ cs.extract a b, (ofSymbol? ch).isSome) (ha : a ≤ l) (hb : l < b)
    (hl : l < cs.length) : ∃ o : Operator, cs[l]? = some o.symbol := by
  have hget : (cs.extract a b)[l - a]? = some cs[l] := by
    rw [List.extract_eq_take_drop, List.getElem?_take_of_lt (by omega), List.getElem?_drop,
      Nat.add_sub_of_le ha, List.getElem?_eq_getElem hl]
  obtain ⟨o, ho⟩ := Option.isSome_iff_exists.1 (h _ (List.mem_of_getElem? hget))
  exact ⟨o, by rw [symbol_of_ofSymbol? ho, List.getElem?_eq_getElem hl]⟩

namespace World

variable {w u x : World} {n k i : Nat} {c : Cell} {ls : List Int} {d : Int}

/-- By `n` steps that do nothing the machine goes from `w` to `u`: it goes on by `n` positions, each
step leaves a frame that is marked, and the loops are the only thing that may have changed. -/
structure Idles (w : World) (n : Nat) (u : World) : Prop where
  steps_eq : w.steps n = (.ok (), u)
  position_eq : u.machine.position = w.machine.position + n
  agree : u.Agree w
  target_eq : u.machine.target = w.machine.target
  frames_eq : ∃ fs : List Frame, fs.length = n ∧ (∀ f ∈ fs, f.noop = true) ∧
    u.machine.frames.toList = w.machine.frames.toList ++ fs

namespace Idles

theorem zero (w : World) : w.Idles 0 w where
  steps_eq := rfl
  position_eq := (Int.add_zero _).symm
  agree := .rfl
  target_eq := rfl
  frames_eq := ⟨[], rfl, fun _ hf => absurd hf List.not_mem_nil, (List.append_nil _).symm⟩

theorem trans (h : w.Idles n u) (hu : u.Idles k x) : w.Idles (n + k) x where
  steps_eq := by
    rw [steps_add, h.steps_eq]
    exact hu.steps_eq
  position_eq := by
    rw [hu.position_eq, h.position_eq]
    omega
  agree :=
    { cells_eq := hu.agree.cells_eq.trans h.agree.cells_eq
      pointer_eq := hu.agree.pointer_eq.trans h.agree.pointer_eq
      buffer_eq := hu.agree.buffer_eq.trans h.agree.buffer_eq
      mode_eq := hu.agree.mode_eq.trans h.agree.mode_eq
      events_eq := hu.agree.events_eq.trans h.agree.events_eq
      lines_eq := hu.agree.lines_eq.trans h.agree.lines_eq
      program_eq := hu.agree.program_eq.trans h.agree.program_eq }
  target_eq := hu.target_eq.trans h.target_eq
  frames_eq := by
    obtain ⟨fs, hlen, hnoop, hfs⟩ := h.frames_eq
    obtain ⟨gs, hlen', hnoop', hgs⟩ := hu.frames_eq
    refine ⟨fs ++ gs, by rw [List.length_append, hlen, hlen'], fun f hf => ?_, ?_⟩
    · exact (List.mem_append.1 hf).elim (hnoop f) (hnoop' f)
    · rw [hgs, hfs, List.append_assoc]

/-- An operator that only changes the loops makes such a step. -/
theorem of_act {o : Operator} {y : Idle} (hi : w.machine.instruction = .ok o.symbol)
    (hc : w.machine.cell = .ok c) (ht : w.machine.target = none ∨ w.machine.target = some 0)
    (ha : o.act (w.started o c) c = (.ok (some y), x))
    (hm : x.machine = { (w.started o c).machine with loops := ls, deadDepth := d })
    (hl : x.lines = w.lines) (he : x.events = w.events) :
    ∃ u, w.Idles 1 u ∧ u.machine.loops = ls ∧ u.machine.deadDepth = d := by
  obtain ⟨machine, lines, trace⟩ := x
  obtain rfl : machine = _ := hm
  set m : Machine := { (w.started o c).machine with loops := ls, deadDepth := d }
  have hmove : moveOn m.toState = { m.toState with position := w.machine.position + 1 } :=
    State.moveOn_eq_of_no_target ht
  set v := World.completed ⟨m, lines, trace⟩ (o.leavesFrame w.machine.toState) (some y)
  have hv : v.machine.toState = { m.toState with position := w.machine.position + 1 } := hmove
  have hnext : w.Next v := advance_eq_ok_iff.2 ⟨o, c, some y, _, hi, hc, ha, rfl⟩
  refine ⟨v, ⟨?_, ?_, ⟨?_, ?_, ?_, ?_, ?_, hl, rfl⟩, ?_, ?_⟩, ?_, ?_⟩
  · rw [steps_succ_of_next hnext, steps]
  · rw [hv]
    rfl
  · rw [hv]
    rfl
  · rw [hv]
    rfl
  · rw [hv]
    rfl
  · rw [hv]
    rfl
  · exact (events_noted ⟨m, lines, trace⟩ _).trans he
  · rw [hv]
    rfl
  · refine ⟨[m.idleFrame y], rfl, ?_, Array.toList_push⟩
    intro f hf
    rw [List.mem_singleton.1 hf]
    rfl
  · rw [hv]
  · rw [hv]

section Step

variable (hc : w.machine.cell = .ok c)
  (ht : w.machine.target = none ∨ w.machine.target = some 0)
include hc ht

/-- On a dead machine an operator other than a bracket does nothing. -/
theorem other {o : Operator} (hb : o.isBracket = false) (hd : w.machine.isDead = true)
    (hi : w.machine.instruction = .ok o.symbol) :
    ∃ u, w.Idles 1 u ∧ u.machine.loops = w.machine.loops ∧
      u.machine.deadDepth = w.machine.deadDepth := by
  refine of_act hi hc ht (y := .dead) (x := w.started o c) ?_ rfl rfl (w.events_started o c)
  rw [Operator.act_of_dead (w := w.started o c) hd, Operator.skip_eq_of_not_isBracket hb]

/-- On a zero, an opening bracket begins a loop that is skipped, whether the machine is dead or
not. -/
theorem opening (hz : c = Cell.zero) (hi : w.machine.instruction = .ok '[') :
    ∃ u, w.Idles 1 u ∧ u.machine.loops = w.machine.position :: w.machine.loops ∧
      u.machine.deadDepth = w.machine.deadDepth + 1 := by
  refine of_act (o := .beginLoop) hi hc ht (y := .deadLoopBegun)
    (x := (w.started .beginLoop c).openDeadLoop) ?_ rfl rfl ?_
  · cases hd : (w.started .beginLoop c).machine.isDead with
    | true => rw [Operator.act_of_dead hd, Operator.skip]
    | false => rw [Operator.act_of_live hd, Operator.work, if_pos hz]
  · exact ((w.started .beginLoop c).events_noted _).trans (w.events_started .beginLoop c)

/-- On a dead machine a closing bracket ends the loop that was begun last. -/
theorem closing {p : Int} {ps : List Int} (hd : w.machine.isDead = true)
    (hl : w.machine.loops = p :: ps) (hi : w.machine.instruction = .ok ']') :
    ∃ u, w.Idles 1 u ∧ u.machine.loops = ps ∧
      u.machine.deadDepth = w.machine.deadDepth - 1 := by
  refine of_act (o := .endLoop) hi hc ht (y := .deadLoopEnded)
    (x := (w.started .endLoop c).withState { (w.started .endLoop c).machine.toState with
      loops := ps, deadDepth := w.machine.deadDepth - 1 }) ?_ rfl rfl (w.events_started .endLoop c)
  have hl' : (w.started .endLoop c).machine.loops = p :: ps := hl
  rw [Operator.act_of_dead (w := w.started .endLoop c) hd, Operator.skip]
  simp only [hl']
  rfl

end Step

/-- **Inside a skipped loop**, as long as the height stays above that of its bracket, the count of
skipped loops is the height above the bracket, and as many loops stand on the stack above those that
were open before. -/
theorem exists_of_stays (hlive : w.machine.deadDepth = 0)
    (ht : w.machine.target = none ∨ w.machine.target = some 0) (hp : w.machine.position = i)
    (ho : w.machine.program[i]? = some '[') (hz : w.machine.cell = .ok Cell.zero)
    (hstay : ∀ l, i < l → l < i + n → height w.machine.program i < height w.machine.program l)
    (hops : ∀ l, i ≤ l → l < i + n → ∃ o : Operator, w.machine.program[l]? = some o.symbol) :
    ∃ u, w.Idles n u ∧
      u.machine.deadDepth = height w.machine.program (i + n) - height w.machine.program i ∧
      ∃ ps, u.machine.loops = ps ++ w.machine.loops ∧ (ps.length : Int) = u.machine.deadDepth := by
  induction n with
  | zero =>
    refine ⟨w, .zero w, ?_, [], rfl, hlive.symm⟩
    rw [hlive, Nat.add_zero, Int.sub_self]
  | succ n ih =>
    obtain ⟨u, hu, hdepth, ps, hloops, hlen⟩ := ih
      (fun l hl hn => hstay l hl (by omega)) (fun l hl hn => hops l hl (by omega))
    obtain ⟨o, hi⟩ := hops (i + n) (by omega) (by omega)
    have hcell : u.machine.cell = .ok Cell.zero := hu.agree.cell_eq.trans hz
    have htarget : u.machine.target = none ∨ u.machine.target = some 0 := by
      rw [hu.target_eq]
      exact ht
    have hinstr : u.machine.instruction = .ok o.symbol := by
      refine Machine.instruction_of_get ?_
      rw [hu.position_eq, hp, hu.agree.program_eq]
      exact Index.get_natCast_eq_ok_iff.2 hi
    -- Only the bracket of the loop itself is met by a machine that is not dead.
    have hdead : w.machine.program[i + n]? ≠ some '[' → 0 < u.machine.deadDepth := by
      intro hne
      have hn : n ≠ 0 := by
        rintro rfl
        exact hne ho
      have := hstay (i + n) (by omega) (by omega)
      omega
    have hskips : 0 < u.machine.deadDepth → u.machine.isDead = true :=
      fun h => bne_iff_ne.2 (Int.ne_of_gt h)
    cases hb : o.isBracket with
    | false =>
      obtain ⟨hno, hnc⟩ := Operator.symbol_ne_of_not_isBracket hb
      have hopen : w.machine.program[i + n]? ≠ some '[' := by
        rw [hi]
        exact fun h => hno (Option.some.inj h)
      have hclose : w.machine.program[i + n]? ≠ some ']' := by
        rw [hi]
        exact fun h => hnc (Option.some.inj h)
      obtain ⟨x, hx, hxl, hxd⟩ := other hcell htarget hb (hskips (hdead hopen)) hinstr
      refine ⟨x, hu.trans hx, ?_, ps, hxl.trans hloops, by rw [hxd, hlen]⟩
      rw [hxd, hdepth, ← Nat.add_assoc, height_succ_of_other hopen hclose]
    | true =>
      cases o with
      | beginLoop =>
        obtain ⟨x, hx, hxl, hxd⟩ := opening hcell htarget rfl hinstr
        refine ⟨x, hu.trans hx, ?_, u.machine.position :: ps, by rw [hxl, hloops]; rfl, ?_⟩
        · rw [hxd, hdepth, ← Nat.add_assoc, height_succ_of_open hi]
          omega
        · rw [hxd, List.length_cons, ← hlen]
          rfl
      | endLoop =>
        have hpos := hdead (by rw [hi]; decide)
        obtain ⟨p, ps, rfl⟩ : ∃ p qs, ps = p :: qs := by
          cases ps with
          | nil =>
            rw [List.length_nil] at hlen
            omega
          | cons p qs => exact ⟨p, qs, rfl⟩
        obtain ⟨x, hx, hxl, hxd⟩ := closing hcell htarget (hskips hpos) hloops hinstr
        refine ⟨x, hu.trans hx, ?_, ps, hxl, ?_⟩
        · rw [hxd, hdepth, ← Nat.add_assoc, height_succ_of_close hi]
          omega
        · rw [hxd, ← hlen, List.length_cons]
          omega
      | _ => cases hb

end Idles

/-- **A loop opened on a zero is skipped.**  Let the machine stand at an opening bracket, alive and on
a zero, with no jump under way.  If the bracket is closed at `j` and there are only operators up to
there, then the next `j - i + 1` steps all work and do nothing: each leaves a marked frame, nothing
happens on the lines, the tape, the pointer, the buffer, the mode, the target, the open loops and
the count of skipped loops are as they were, and the machine stands behind the closing bracket.  If
the bracket is not closed and there are only operators up to the end of the program, the run comes
to that end in the same way. -/
theorem dead_loop_skipped (hlive : w.machine.deadDepth = 0)
    (ht : w.machine.target = none ∨ w.machine.target = some 0) (hp : w.machine.position = i)
    (ho : w.machine.program[i]? = some '[') (hz : w.machine.cell = .ok Cell.zero) :
    (∀ j, Closes w.machine.program i j →
      (∀ ch ∈ w.machine.program.extract i (j + 1), (Operator.ofSymbol? ch).isSome) →
      ∃ u, w.Idles (j - i + 1) u ∧ u.machine.position = (j : Int) + 1 ∧
        u.machine.loops = w.machine.loops ∧ u.machine.deadDepth = w.machine.deadDepth) ∧
    ((∀ j, ¬ Closes w.machine.program i j) →
      (∀ ch ∈ w.machine.program.drop i, (Operator.ofSymbol? ch).isSome) →
      ∃ u, w.Idles (w.machine.size - i) u ∧ u.machine.position = w.machine.size ∧
        ∀ n, w.machine.size - i ≤ n → w.run n = .finished u) := by
  refine ⟨fun j hj hops => ?_, fun hnone hops => ?_⟩
  · obtain ⟨hij, -, hclose, hback, hstay⟩ := closes_iff.1 hj
    have hlt := (List.getElem?_eq_some_iff.1 hclose).1
    have hend : i + (j - i + 1) = j + 1 := by omega
    obtain ⟨u, hu, hdepth, ps, hloops, hlen⟩ := Idles.exists_of_stays (n := j - i + 1) hlive ht hp ho
      hz (fun l hl hn => hstay l hl (by omega))
      (fun l hl hn => Operator.exists_of_extract hops hl (by omega) (by omega))
    -- Behind the closing bracket the height is that of the opening one.
    rw [hend, hback, Int.sub_self] at hdepth
    obtain rfl : ps = [] := List.length_eq_zero_iff.1 (by omega)
    refine ⟨u, hu, ?_, hloops, hdepth.trans hlive.symm⟩
    rw [hu.position_eq, hp]
    omega
  · have hlt := (List.getElem?_eq_some_iff.1 ho).1
    have hsize : w.machine.size = w.machine.program.length := rfl
    have hstay := (forall_not_closes_iff (e := w.machine.size) ho).1 fun j _ => hnone j
    have hall : w.machine.program.extract i w.machine.size = w.machine.program.drop i := by
      rw [List.extract_eq_take_drop, List.take_of_length_le]
      rw [List.length_drop, hsize]
    rw [← hall] at hops
    obtain ⟨u, hu, -⟩ := Idles.exists_of_stays (n := w.machine.size - i) hlive ht hp ho hz
      (fun l hl hn => hstay l hl (by omega))
      (fun l hl hn => Operator.exists_of_extract hops hl (by omega) (by omega))
    have hposition : u.machine.position = w.machine.size := by
      rw [hu.position_eq, hp]
      omega
    have hfinished : u.machine.isFinished = true := by
      rw [Machine.isFinished, hposition, Machine.size, hu.agree.program_eq]
      exact decide_eq_true (Int.le_refl _)
    exact ⟨u, hu, hposition, fun n hn => EndsAfter.run_of_le ⟨hu.steps_eq, hfinished⟩ hn⟩

/-- A loop in a loop is skipped with its bracket closed, and to the end of the program with its
bracket open. -/
theorem dead_loop_skipped_nested :
    (let w : World := { machine := { Machine.load "[-[?]=]+".toList with target := some 0 } }
      ∃ u, w.Idles 7 u ∧ u.machine.position = 7 ∧ u.machine.loops = [] ∧
        u.machine.deadDepth = 0) ∧
    let w : World := { machine := Machine.load "[-[?]=".toList }
    ∃ u, w.Idles 6 u ∧ u.machine.position = 6 ∧ ∀ n, 6 ≤ n → w.run n = .finished u := by
  have hget : Index.get State.initial.cells State.initial.pointer = .ok Cell.zero :=
    State.cell_eq_ok_iff.1 ((State.initial_tracks []).cell_of_first rfl)
  refine ⟨?_, ?_⟩
  · intro w
    have hzero : w.machine.cell = .ok Cell.zero := State.cell_eq_ok_iff.2 hget
    have hskip := dead_loop_skipped (w := w) (i := 0) rfl (.inr rfl) rfl (by decide) hzero
    exact hskip.1 6 (by decide +kernel) (List.all_eq_true.1 (by decide))
  · intro w
    have hzero : w.machine.cell = .ok Cell.zero := State.cell_eq_ok_iff.2 hget
    have hskip := dead_loop_skipped (w := w) (i := 0) rfl (.inl rfl) rfl (by decide) hzero
    refine hskip.2 (fun j hj => ?_) (List.all_eq_true.1 (by decide))
    -- A bracket that closes the loop would stand in the program.
    have hlt : j < w.machine.program.length := (List.getElem?_eq_some_iff.1 hj.2.2.1).1
    have hnone : ∀ j < w.machine.program.length, ¬ Closes w.machine.program 0 j := by
      decide +kernel
    exact hnone j hlt hj

end World

end TapeMachine
