import TapeMachine.Proofs.DumpReading
import TapeMachine.Proofs.Publication

/-!
# What a window shows of a frame

To look at a frame fills in its number, the rows of its state, and the dumps of its cells and its
buffer, one after another.  A frame with a block among its cells has no dump, and the look ends in a
fault after the number and the rows were filled in.  Where there is no frame the rows and the dumps
are cleared, but the number is not.  So what is shown need not belong together:

* a look that does not end in a fault shows all of the frame, and it ends in none exactly if the
  frame has no block among its cells (`Window.viewFrame_of_dumps`, `Frame.exists_dumps_iff`);
* one that does shows the number and the rows of the frame beside the dumps from before
  (`Window.viewFrame_of_block`);
* one at an empty stack leaves the number from before (`Window.viewFrame_of_isEmpty`).

What was there before depends on all that was done at the window.  Nothing but a look changes what
is shown (`Window.Keeps`), so the rows always stem from a frame of some run, and both dumps always
stem from one frame, though perhaps of another run (`Journal.Sourced`).
-/

namespace TapeMachine

open Exec

/-- The signal chooses a frame, to look at it or to put the slider on it. -/
def Handler.choosesFrame : Handler → Bool
  | .frameChosen | .frameBack | .frameAhead => true
  | _ => false

/-- What a window shows of a frame. -/
structure Exhibit where
  /-- The number of the frame. -/
  number : String
  /-- The rows of its state. -/
  rows : List String
  /-- The dump of its cells. -/
  cells : String
  /-- The dump of its buffer. -/
  buffer : String
deriving DecidableEq, Repr

/-! ### The dumps of a frame -/

namespace Frame

variable {f : Frame} {cells buffer : String}

/-- The dumps of the frame's cells and of its buffer. -/
structure Dumps (f : Frame) (cells buffer : String) : Prop where
  cells_eq : f.dumpCells (some Window.dumpSpec) = .ok cells
  buffer_eq : f.dumpBuffer (some Window.dumpSpec) = .ok buffer

theorem dumpCells_of_block (h : Dump.HasBlock f.cells) :
    f.dumpCells (some Window.dumpSpec) = .error .blockWithSpec :=
  (Dump.lays_ofCells f.cells).fails h

theorem exists_dumps (h : ¬Dump.HasBlock f.cells) : ∃ cells buffer, f.Dumps cells buffer := by
  refine ⟨_, _, (Dump.lays_ofCells f.cells).gives h, (Dump.lays_ofCells _).gives ?_⟩
  -- The bytes of a buffer are numbers.
  rintro ⟨bs, hbs⟩
  obtain ⟨b, -, hb⟩ := List.mem_map.1 hbs
  cases hb

/-- **Only a block keeps a frame from having dumps.** -/
theorem exists_dumps_iff : (∃ cells buffer, f.Dumps cells buffer) ↔ ¬Dump.HasBlock f.cells := by
  refine ⟨?_, exists_dumps⟩
  rintro ⟨cells, buffer, hd⟩ hb
  cases (dumpCells_of_block hb).symm.trans hd.cells_eq

end Frame

theorem Machine.mem_frames_of_frame? {m : Machine} {i : Int} {f : Frame} (h : m.frame? i = .ok f) :
    f ∈ m.frames := by
  unfold frame? at h
  split at h <;> cases h
  exact Array.mem_toList_iff.1 (Index.mem_of_get ‹_›)

theorem Machine.frame?_natCast {m : Machine} {k : Nat} {f : Frame} (h : m.frames[k]? = some f) :
    m.frame? k = .ok f := by
  have hget : Index.get m.frames.toList (k : Int) = .ok f :=
    Index.get_natCast_eq_ok_iff.2 (by rw [Array.getElem?_toList, h])
  rw [frame?, hget]

namespace Window

variable {w u v : Window} {i : Int} {f : Frame} {cells buffer : String}

/-! ### A look at a frame -/

/-- What the window shows of a frame. -/
def exhibit (w : Window) : Exhibit := ⟨w.status.frame, w.status.rows, w.cellsText, w.bufferText⟩

/-- The window with the number and the rows of a frame filled in. -/
def facing (w : Window) (i : Int) (f : Frame) : Window := { w with
  status := { w.status with frame := String.ofList (Numeral.decimal i), rows := rowsOf f } }

/-- The window with dumps filled in and the text cursor put on a position. -/
def showing (w : Window) (cells buffer : String) (position : Int) : Window :=
  ({ w with cellsText := cells, bufferText := buffer }.signal (.cursor position)).signal
    (.cursor (position + 1))

theorem shown_of_latest {m : Machine} (h : w.latest = some m) : w.shown = m := by
  rw [shown, h]
  rfl

/-- A machine with frames stems from a run. -/
theorem latest_of_frames (h : w.shown.frames ≠ #[]) : w.latest = some w.shown := by
  cases hl : w.latest with
  | none =>
    refine absurd ?_ h
    rw [shown, hl]
    rfl
  | some m => rw [shown_of_latest hl]

theorem viewFrame_of_isEmpty (hl : w.latest = some w.shown) (h : w.shown.frames = #[]) (i : Int) :
    w.viewFrame i = (.ok (), w.clearView) := by
  rw [viewFrame, hl]
  exact if_pos (Array.isEmpty_iff.2 h)

/-- Where there are frames the number is filled in first. -/
theorem viewFrame_of_frames (h : w.shown.frames ≠ #[]) (i : Int) :
    let u := { w with status := { w.status with frame := String.ofList (Numeral.decimal i) } }
    w.viewFrame i = match w.shown.frame? i with
      | .error e => (.error e, u)
      | .ok f => { u with status := { u.status with rows := rowsOf f } }.showDumps f := by
  intro u
  unfold viewFrame
  split
  · rename_i hl
    cases hl.symm.trans (latest_of_frames h)
  · rename_i m hl
    obtain rfl := shown_of_latest hl
    exact if_neg fun he => h (Array.isEmpty_iff.1 he)

theorem viewFrame_of_frame? (h : w.shown.frame? i = .ok f) :
    w.viewFrame i = (w.facing i f).showDumps f := by
  have hne : w.shown.frames ≠ #[] := by
    intro he
    have hmem := Machine.mem_frames_of_frame? h
    rw [he] at hmem
    cases Array.not_mem_empty f hmem
  rw [viewFrame_of_frames hne, h]
  rfl

/-- A look at a frame with a block ends in a fault after its number and its rows were filled in. -/
theorem viewFrame_of_block (h : w.shown.frame? i = .ok f) (hb : Dump.HasBlock f.cells) :
    w.viewFrame i = (.error (.format .blockWithSpec), w.facing i f) := by
  rw [viewFrame_of_frame? h, showDumps, Frame.dumpCells_of_block hb]

/-- A look at any other frame fills in its dumps too, and puts the cursor on its instruction. -/
theorem viewFrame_of_dumps (h : w.shown.frame? i = .ok f) (hd : f.Dumps cells buffer) :
    w.viewFrame i = (.ok (), (w.facing i f).showing cells buffer f.position) := by
  rw [viewFrame_of_frame? h, showDumps, hd.cells_eq]
  dsimp only
  rw [hd.buffer_eq]
  rfl

theorem latest_viewFrame (w : Window) (i : Int) : (w.viewFrame i).2.latest = w.latest := by
  obtain ⟨status, cells, buffer, signals, hv⟩ := w.exists_viewFrame_eq i
  rw [hv]

/-- A number that selects no frame is filled in, and nothing else is. -/
theorem exhibit_of_noFrame {e : Fault} (hne : w.shown.frames ≠ #[])
    (h : w.shown.frame? i = .error e) :
    (w.viewFrame i).2.exhibit =
      { w.exhibit with number := String.ofList (Numeral.decimal i) } := by
  rw [viewFrame_of_frames hne, h]
  rfl

/-! ### All that is no look -/

/-- The window shows the same of the same machine, and its slider and the text of the program are
the same. -/
structure Keeps (w u : Window) : Prop where
  exhibit_eq : u.exhibit = w.exhibit
  latest_eq : u.latest = w.latest
  slider_eq : u.slider = w.slider
  programText_eq : u.programText = w.programText

namespace Keeps

theorem trans (h : Keeps w u) (hu : Keeps u v) : Keeps w v where
  exhibit_eq := hu.exhibit_eq.trans h.exhibit_eq
  latest_eq := hu.latest_eq.trans h.latest_eq
  slider_eq := hu.slider_eq.trans h.slider_eq
  programText_eq := hu.programText_eq.trans h.programText_eq

theorem shown_eq (h : Keeps w u) : u.shown = w.shown := by
  rw [shown, shown, h.latest_eq]

theorem log (w : Window) (n : Note) : Keeps w (w.log n) := by
  unfold Window.log
  split <;> exact ⟨rfl, rfl, rfl, rfl⟩

theorem updatePane (w : Window) (c : Channel) (g : Pane → Pane) : Keeps w (w.updatePane c g) := by
  cases c <;> exact ⟨rfl, rfl, rfl, rfl⟩

theorem append (w : Window) (c : Channel) (isOutput : Bool) (text : String) :
    Keeps w (w.append c isOutput text) := by
  rw [Window.append]
  exact updatePane w c _

theorem display (w : Window) (es : List Entry) : Keeps w (w.display es) := by
  induction es generalizing w with
  | nil => exact ⟨rfl, rfl, rfl, rfl⟩
  | cons e es ih =>
    rw [display_cons]
    refine Keeps.trans ?_ (ih _)
    cases e with
    | note n => exact log w n
    | event x =>
      cases x with
      | read d reply => exact ⟨rfl, rfl, rfl, rfl⟩
      | wrote d text => exact append w d true text

theorem suspend (w : Window) (m : Machine) (c : Channel) : Keeps w (w.suspend m c) := by
  cases c <;> exact ⟨rfl, rfl, rfl, rfl⟩

theorem yield (w : Window) (result : Except Fault Unit) (m : Machine) :
    Keeps w (w.yield result m).1 := by
  cases result with
  | ok _ => exact ⟨rfl, rfl, rfl, rfl⟩
  | error g =>
    obtain ⟨he, hs, hl, hp⟩ := log w (.stopped g)
    exact ⟨he, hs, hl, hp⟩

theorem evaluate (w : Window) : Keeps w w.evaluate := by
  unfold Window.evaluate
  split
  · exact ⟨rfl, rfl, rfl, rfl⟩
  · refine Keeps.trans ?_ (log _ _)
    exact ⟨rfl, rfl, rfl, rfl⟩

theorem enter (w : Window) (c : Channel) : Keeps w (w.enter c).2 := by
  obtain ⟨-, he⟩ | ⟨-, -, he⟩ | ⟨-, -, he⟩ := w.enter_cases c
  · rw [he]
    exact ⟨rfl, rfl, rfl, rfl⟩
  · rw [he]
    dsimp only [handIn]
    exact (append w c _ _).trans (updatePane _ c _)
  · rw [he]
    exact append w c _ _

/-- A step of the run keeps what is shown. -/
theorem progress? {ended : Option Machine} (h : w.progress? = some (u, ended)) : Keeps w u := by
  obtain ⟨m, -, -, heq⟩ | ⟨m, es, -, -, -, heq⟩ | ⟨m, c, es, -, -, heq⟩ |
    ⟨m, c, text, es, -, -, heq⟩ := progress?_cases h
  · obtain ⟨rfl, -⟩ := Prod.ext_iff.1 heq
    exact ⟨rfl, rfl, rfl, rfl⟩
  · obtain ⟨rfl, -⟩ := Prod.ext_iff.1 heq
    exact (display w es).trans (yield _ _ _)
  · obtain ⟨rfl, -⟩ := Prod.ext_iff.1 heq
    exact (display w es).trans (suspend _ m c)
  · obtain ⟨rfl, -⟩ := Prod.ext_iff.1 heq
    have hblocking : Keeps w (w.setBlocking c false) := ⟨rfl, rfl, rfl, rfl⟩
    exact (hblocking.trans (display _ _)).trans (yield _ _ _)

/-- A signal that chooses no frame keeps what is shown. -/
theorem handle {s : Handler} (hs : s.choosesFrame = false) (w : Window) (i : Int) :
    Keeps w (w.handle i s).2 := by
  cases s with
  | frameChosen | frameBack | frameAhead => cases hs
  | entered c =>
    rw [Window.handle, snd_attempted]
    exact enter w c
  | returnPressed =>
    rw [Window.handle, snd_attempted]
    exact enter w .console
  | resetRunToEnd =>
    have hclean : Keeps w w.setClean := ⟨rfl, rfl, rfl, rfl⟩
    exact hclean.trans (evaluate _)
  | fieldReset c | edited c => cases c <;> exact ⟨rfl, rfl, rfl, rfl⟩
  | _ => exact ⟨rfl, rfl, rfl, rfl⟩

end Keeps

theorem exhibit_act (w : Window) {a : Action} (hm : a ≠ .moved)
    (ha : ∀ i, a ≠ .signal .frameChosen i) : (w.act a).2.exhibit = w.exhibit := by
  cases a with
  | signal s i =>
    cases hs : s.choosesFrame with
    | false => exact (Keeps.handle hs w i).exhibit_eq
    | true =>
      cases s with
      | frameChosen => exact absurd rfl (ha i)
      | frameBack | frameAhead => rfl
      | _ => cases hs
  | typed c text =>
    rw [act, setText_input]
    exact (Keeps.updatePane w c _).exhibit_eq
  | composed text => rfl
  | moved => exact absurd rfl hm

end Window

/-! ### What was shown before -/

namespace Journal

open Window

variable {j : Journal} {u : Window}

/-- Where what is shown comes from: the machine from the latest run, the rows from a frame of a run,
and both dumps from one frame of a run, if there was anything to be shown. -/
structure Sourced (published : List Machine) (w : Window) : Prop where
  machine : w.latest = published.head?
  rows : w.exhibit.rows = opened.exhibit.rows ∨ w.exhibit.rows = blankRows ∨
    ∃ m ∈ published, ∃ f ∈ m.frames, w.exhibit.rows = rowsOf f
  dumps : w.exhibit.cells = "" ∧ w.exhibit.buffer = "" ∨
    ∃ m ∈ published, ∃ f ∈ m.frames, f.Dumps w.exhibit.cells w.exhibit.buffer

namespace Sourced

variable {published : List Machine} {w : Window} {i : Int}

theorem new : Sourced [] opened where
  machine := rfl
  rows := .inl rfl
  dumps := .inl ⟨rfl, rfl⟩

theorem congr (h : Sourced published w) (he : u.exhibit = w.exhibit) (hl : u.latest = w.latest) :
    Sourced published u := by
  obtain ⟨hm, hr, hd⟩ := h
  exact ⟨hl.trans hm, he ▸ hr, he ▸ hd⟩

/-- The window is told of another machine. -/
theorem complete (h : Sourced published w) (m : Machine) :
    Sourced (m :: published) (w.complete m) where
  machine := rfl
  rows := by
    obtain hr | hr | ⟨m', hm', hr⟩ := h.rows
    · exact .inl hr
    · exact .inr (.inl hr)
    · exact .inr (.inr ⟨m', List.mem_cons_of_mem m hm', hr⟩)
  dumps := by
    obtain hd | ⟨m', hm', hd⟩ := h.dumps
    · exact .inl hd
    · exact .inr ⟨m', List.mem_cons_of_mem m hm', hd⟩

/-- A look fills in parts of one frame, or clears them. -/
theorem viewFrame (h : Sourced published w) (i : Int) : Sourced published (w.viewFrame i).2 := by
  have hmachine : (w.viewFrame i).2.latest = published.head? :=
    (w.latest_viewFrame i).trans h.machine
  cases hl : w.latest with
  | none =>
    rw [Window.viewFrame, hl]
    exact h
  | some m =>
    have hmem : m ∈ published := List.mem_of_mem_head? (h.machine.symm.trans hl)
    obtain rfl := shown_of_latest hl
    by_cases hne : w.shown.frames = #[]
    · rw [viewFrame_of_isEmpty hl hne] at hmachine ⊢
      exact ⟨hmachine, .inr (.inl rfl), .inl ⟨rfl, rfl⟩⟩
    · cases hf : w.shown.frame? i with
      | error e =>
        have hexhibit := exhibit_of_noFrame hne hf
        refine ⟨hmachine, ?_, ?_⟩
        · rw [hexhibit]
          exact h.rows
        · rw [hexhibit]
          exact h.dumps
      | ok f =>
        have hframe := Machine.mem_frames_of_frame? hf
        by_cases hb : Dump.HasBlock f.cells
        · rw [viewFrame_of_block hf hb]
          exact ⟨h.machine, .inr (.inr ⟨_, hmem, f, hframe, rfl⟩), h.dumps⟩
        · obtain ⟨cells, buffer, hd⟩ := Frame.exists_dumps hb
          rw [viewFrame_of_dumps hf hd]
          exact ⟨h.machine, .inr (.inr ⟨_, hmem, f, hframe, rfl⟩), .inr ⟨_, hmem, f, hframe, hd⟩⟩

theorem act (h : Sourced j.published j.window) (a : Action) :
    Sourced (j.act a).published (j.act a).window := by
  obtain ⟨m, -, hact⟩ | hact | ⟨u, ended, hp, hact⟩ | ⟨hm, hact⟩ := j.act_cases a
  · rw [hact]
    exact h.complete m
  · rw [hact]
    exact h
  · rw [hact]
    have hkeeps := Keeps.progress? hp
    exact h.congr hkeeps.exhibit_eq hkeeps.latest_eq
  · rw [hact]
    by_cases ha : ∃ i, a = .signal .frameChosen i
    · obtain ⟨i, rfl⟩ := ha
      have hview := h.viewFrame i
      have hsnd := snd_attempted (j.window.viewFrame i)
      rw [← hsnd] at hview
      exact hview
    · exact h.congr (exhibit_act _ hm fun i hi => ha ⟨i, hi⟩) (j.window.attends_act hm).latest_eq

theorem after (as : List Action) : Sourced (after as).published (after as).window :=
  List.foldlRecOn (motive := fun j => Sourced j.published j.window) as Journal.act new
    fun _ h a _ => act h a

end Sourced

end Journal

end TapeMachine
