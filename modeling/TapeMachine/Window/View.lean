import TapeMachine.Window.Basic

/-!
# Looking at frames

A frame is shown by the number of its step: the table of its state, the dumps of its cells and its
buffer, and the text cursor on its instruction.  The parts are filled in one after another, so a
frame that has no dump leaves the old dumps standing beside its state.
-/

namespace TapeMachine

namespace Window

/-- A number that may be missing, as the table shows it. -/
def optionalText : Option Int → String
  | some i => String.ofList (Numeral.decimal i)
  | none => "None"

/-- The state in a frame, as the table shows it. -/
def rowsOf (f : Frame) : List String :=
  [String.ofList (Numeral.decimal f.position), String.ofList (Numeral.decimal f.pointer),
   f.symbol.getD "None", String.ofList (Numeral.ofNat 10 f.buffer.length), f.mode.text,
   String.ofList (Numeral.decimal f.deadDepth), String.ofList (Numeral.ofNat 10 f.loopDepth),
   optionalText f.loopPosition, optionalText f.target]

/-- The rows when there is no frame. -/
def blankRows : List String := List.replicate 9 "None"

/-- The layout of the numbers in the dumps. -/
def dumpSpec : String := "03d"

/-- Clears the view. -/
def clearView (w : Window) : Window :=
  { w with status := { w.status with rows := blankRows }, cellsText := "", bufferText := "" }

/-- Shows the dumps of a frame and puts the cursor on its instruction. -/
def showDumps (w : Window) (f : Frame) : Except Fault Unit × Window :=
  match f.dumpCells (some dumpSpec) with
  | .error e => (.error (.format e), w)
  | .ok cells =>
    let w := { w with cellsText := cells }
    match f.dumpBuffer (some dumpSpec) with
    | .error e => (.error (.format e), w)
    | .ok buffer =>
      (.ok (), ({ w with bufferText := buffer }.signal (.cursor f.position)).signal
        (.cursor (f.position + 1)))

/-- The machine that is looked at; before a run was completed it has no frames. -/
def shown (w : Window) : Machine := w.latest.getD default

/-- Shows the frame that a signed index selects.  Without any frame the view is cleared, and before a
run was completed there is nothing to look at. -/
def viewFrame (w : Window) (i : Int) : Except Fault Unit × Window :=
  match w.latest with
  | none => (.error .nothingToShow, w)
  | some m =>
    if m.frames.isEmpty then (.ok (), w.clearView)
    else
      let w := { w with status := { w.status with frame := String.ofList (Numeral.decimal i) } }
      match m.frame? i with
      | .error f => (.error f, w)
      | .ok frame => { w with status := { w.status with rows := rowsOf frame } }.showDumps frame

/-- Sets the slider and the table to the last frame. -/
def setStackDepth (w : Window) : Window :=
  let last := w.shown.frames.size - 1
  { w with
    slider := { value := last, maximum := last }
    status := { w.status with depth := String.ofList (Numeral.ofNat 10 last) } }

/-- The slider selects one of the frames that it offers. -/
def SliderInRange (w : Window) : Prop := 0 ≤ w.slider.value ∧ w.slider.value ≤ w.slider.maximum

theorem setStackDepth_inRange (w : Window) : w.setStackDepth.SliderInRange :=
  ⟨Int.natCast_nonneg _, Int.le_refl _⟩

/-- Moves the slider one frame back. -/
def frameBack (w : Window) : Window :=
  { w with slider := { w.slider with value := max 0 (w.slider.value - 1) } }

/-- Moves the slider one frame ahead. -/
def frameAhead (w : Window) : Window :=
  { w with slider := { w.slider with value := min w.slider.maximum (w.slider.value + 1) } }

theorem frameBack_inRange {w : Window} (h : w.SliderInRange) : w.frameBack.SliderInRange := by
  obtain ⟨h₀, h₁⟩ := h
  refine ⟨?_, ?_⟩ <;> simp only [frameBack] <;> omega

theorem frameAhead_inRange {w : Window} (h : w.SliderInRange) : w.frameAhead.SliderInRange := by
  obtain ⟨h₀, h₁⟩ := h
  refine ⟨?_, ?_⟩ <;> simp only [frameAhead] <;> omega

end Window

end TapeMachine
