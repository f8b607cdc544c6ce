import TapeMachine.Proofs.FrameView

/-!
# The slider stays on the stack

The slider of a window stores the value and the maximum that it is given and holds neither within
the other, so what the window does with it has to keep it on the stack of the machine that is shown
(`Window.OnStack`).  The completion of a run puts it there from anywhere
(`Window.onStack_complete`); a click at either end of the stack leaves it there; a look at a frame,
a step of a run and whatever else is done at the window do not touch it (`Window.Keeps`).
-/

namespace TapeMachine

namespace Window

variable {w u : Window}

/-- The slider ranges over the frames of the machine that is shown and stands on one of them; if
there is none, it stands at zero and can go nowhere. -/
structure OnStack (w : Window) : Prop where
  maximum_eq : w.slider.maximum = max ((w.shown.frames.size : Int) - 1) 0
  inRange : w.SliderInRange

theorem onStack_opened : opened.OnStack where
  maximum_eq := rfl
  inRange := ⟨Int.le_refl 0, Int.le_refl 0⟩

theorem slider_complete (w : Window) (m : Machine) :
    (w.complete m).slider.maximum = max ((m.frames.size : Int) - 1) 0 ∧
      (w.complete m).slider.value = (w.complete m).slider.maximum := by
  have hlast : ((m.frames.size - 1 : Nat) : Int) = max ((m.frames.size : Int) - 1) 0 := by omega
  exact ⟨hlast, rfl⟩

/-- **The completion of a run** puts the slider on the stack, wherever it was. -/
theorem onStack_complete (w : Window) (m : Machine) : (w.complete m).OnStack where
  maximum_eq := (w.slider_complete m).1
  inRange := setStackDepth_inRange _

namespace OnStack

theorem congr (h : w.OnStack) (hslider : u.slider = w.slider) (hshown : u.shown = w.shown) :
    u.OnStack := by
  obtain ⟨hmax, hrange⟩ := h
  refine ⟨?_, ?_⟩
  · rw [hslider, hshown]
    exact hmax
  · rw [SliderInRange, hslider]
    exact hrange

theorem frameBack (h : w.OnStack) : w.frameBack.OnStack :=
  ⟨h.maximum_eq, frameBack_inRange h.inRange⟩

theorem frameAhead (h : w.OnStack) : w.frameAhead.OnStack :=
  ⟨h.maximum_eq, frameAhead_inRange h.inRange⟩

theorem handle (h : w.OnStack) (i : Int) (s : Handler) : (w.handle i s).2.OnStack := by
  cases hs : s.choosesFrame with
  | false =>
    have hkeeps := Keeps.handle hs w i
    exact h.congr hkeeps.slider_eq hkeeps.shown_eq
  | true =>
    cases s with
    | frameChosen =>
      obtain ⟨status, cells, buffer, signals, hv⟩ := w.exists_viewFrame_eq i
      rw [Window.handle, snd_attempted, hv]
      exact h.congr rfl rfl
    | frameBack => exact h.frameBack
    | frameAhead => exact h.frameAhead
    | _ => cases hs

/-- An action that is not a move leaves the slider on the stack. -/
theorem act (h : w.OnStack) {a : Action} (ha : a ≠ .moved) : (w.act a).2.OnStack := by
  cases a with
  | signal s i => exact h.handle i s
  | typed c text =>
    rw [Window.act, setText_input]
    have hkeeps := Keeps.updatePane w c fun p => { p with field := text }
    exact h.congr hkeeps.slider_eq hkeeps.shown_eq
  | composed text => exact h.congr rfl rfl
  | moved => exact absurd rfl ha

/-- The value numbers a frame, unless there is none. -/
theorem exists_frame (h : w.OnStack) (hne : w.shown.frames ≠ #[]) :
    0 ≤ w.slider.value ∧ w.slider.value < w.shown.frames.size ∧
      ∃ f, w.shown.frames[w.slider.value.toNat]? = some f := by
  obtain ⟨hmax, hge, hle⟩ := h
  have hpos : 0 < w.shown.frames.size := Array.size_pos_iff.2 hne
  have hlt : w.slider.value < w.shown.frames.size := by omega
  exact ⟨hge, hlt, _, Array.getElem?_eq_getElem (by omega)⟩

end OnStack

end Window

namespace Journal

open Window

variable {j : Journal}

/-- Who published a machine has completed its run. -/
theorem window_of_published {a : Action} {m : Machine}
    (h : (j.act a).published = m :: j.published) : (j.act a).window = j.window.complete m := by
  have hnot : j.published ≠ m :: j.published := (List.cons_ne_self m j.published).symm
  obtain ⟨m', -, hact⟩ | hact | ⟨u, ended, -, hact⟩ | ⟨-, hact⟩ := j.act_cases a
  · rw [hact] at h ⊢
    obtain rfl : m' = m := (List.cons.inj h).1
    rfl
  all_goals
    rw [hact] at h
    exact absurd h hnot

theorem onStack_act (h : j.window.OnStack) (a : Action) : (j.act a).window.OnStack := by
  obtain ⟨m, -, hact⟩ | hact | ⟨u, ended, hp, hact⟩ | ⟨ha, hact⟩ := j.act_cases a
  · rw [hact]
    exact onStack_complete _ m
  · rw [hact]
    exact h
  · rw [hact]
    have hkeeps := Keeps.progress? hp
    exact h.congr hkeeps.slider_eq hkeeps.shown_eq
  · rw [hact]
    exact h.act ha

theorem onStack_after (as : List Action) : (after as).window.OnStack :=
  List.foldlRecOn (motive := fun j => j.window.OnStack) as act onStack_opened
    fun _ h a _ => onStack_act h a

/-- **The slider stays on the stack.**  Whatever is done at a window from its opening on, with runs
of whatever programs in between, that end or fail:

* the value of the slider lies between zero and its maximum;
* when the window is told of a machine, the maximum is the number of its last frame, zero if it has
  none, and the value is the maximum;
* the value numbers a frame of the machine that is shown, if there is any, and a look at that number
  finds the frame. -/
theorem slider_on_stack (as : List Action) :
    let w := (after as).window
    (0 ≤ w.slider.value ∧ w.slider.value ≤ w.slider.maximum) ∧
    (∀ a m, (after (as ++ [a])).published = m :: (after as).published →
      let u := (after (as ++ [a])).window
      u.shown = m ∧ u.slider.maximum = max ((m.frames.size : Int) - 1) 0 ∧
        u.slider.value = u.slider.maximum) ∧
    (w.shown.frames ≠ #[] → 0 ≤ w.slider.value ∧ w.slider.value < w.shown.frames.size ∧
      ∃ f, w.shown.frames[w.slider.value.toNat]? = some f ∧
        w.shown.frame? w.slider.value = .ok f) := by
  have hstack := onStack_after as
  refine ⟨hstack.inRange, fun a m hpublished => ?_, fun hne => ?_⟩
  · rw [after_append] at hpublished ⊢
    have hwindow : ([a].foldl act (after as)).window = (after as).window.complete m :=
      window_of_published hpublished
    dsimp only
    rw [hwindow]
    exact ⟨rfl, slider_complete _ m⟩
  · obtain ⟨hge, hlt, f, hf⟩ := hstack.exists_frame hne
    refine ⟨hge, hlt, f, hf, ?_⟩
    have hframe := Machine.frame?_natCast hf
    rwa [Int.toNat_of_nonneg hge] at hframe

/-- A program leaves three frames and the slider is moved one back from the last; then a run of the
empty program is completed, and the slider goes back to zero. -/
theorem slider_on_stack_shrunk :
    ∃ (as : List Action) (m : Machine), (after as).window.slider = ⟨1, 2⟩ ∧
      (∃ f, (after as).window.shown.frame? 1 = .ok f) ∧ m.frames = #[] ∧
      (after (as ++ [.moved])).published = m :: (after as).published ∧
      (after (as ++ [.moved])).window.slider.maximum = 0 ∧
      (after (as ++ [.moved])).window.slider.value = 0 := by
  obtain ⟨as, hslider, hsize, hdue⟩ : ∃ as : List Action,
      (after as).window.slider = ⟨1, 2⟩ ∧ (after as).window.shown.frames.size = 3 ∧
      (after as).due.map (fun m => m.frames.size) = some 0 :=
    ⟨[.moved, .moved, .composed "+++", .signal .resetRunToEnd 0] ++ List.replicate 5 .moved ++
      [.signal .frameAhead 0, .signal .frameBack 0, .composed "", .signal .resetRunToEnd 0,
        .moved], by decide +kernel⟩
  obtain ⟨m, hm, hempty⟩ := Option.map_eq_some_iff.1 hdue
  have hpublished : (after (as ++ [.moved])).published = m :: (after as).published := by
    rw [after_append]
    exact (publishes_tick hm).published_eq
  obtain ⟨-, htold, hframe⟩ := slider_on_stack as
  obtain ⟨-, hmax, hvalue⟩ := htold .moved m hpublished
  rw [hempty] at hmax
  rw [hmax] at hvalue
  obtain ⟨-, -, f, -, hf⟩ := hframe fun h => by rw [h] at hsize; cases hsize
  rw [hslider] at hf
  exact ⟨as, m, hslider, ⟨f, hf⟩, Array.eq_empty_of_size_eq_zero hempty, hpublished, hmax, hvalue⟩

end Journal

end TapeMachine
