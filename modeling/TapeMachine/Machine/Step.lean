import TapeMachine.Machine.Operation

/-!
# Steps

`Operator.perform` is what an operator does to the machine, `Exec.evaluate` evaluates an operator
given as text and leaves its frame on the stack, and `Exec.advance` is one step of the program: it
fetches the next instruction, evaluates it and moves on.
-/

namespace TapeMachine

open Exec

namespace Operation

/-- Does nothing but leave a frame when the machine is dead, and `work` otherwise. -/
def unlessDead (work : Exec (Option Frame)) : Exec (Option Frame) := do
  if (← state).isDead then return some (← idle .dead) else work

/-- Moves the pointer forward. -/
def advancePointer : Exec Frame := do
  let s ← state
  if s.pointer = s.cells.length then idle .atExtent
  else
    update fun s => { s with pointer := s.pointer + 1 }
    frame

/-- Moves the pointer back. -/
def retreatPointer : Exec Frame := do
  if (← state).pointer = 0 then idle .atZero
  else
    update fun s => { s with pointer := s.pointer - 1 }
    frame

/-- Counts the current cell up. -/
def increment : Exec Frame := do
  match ← cell with
  | .block _ => throw .blockSum
  | .int i =>
    if i = State.byteMax then idle .cellIsMax
    else
      store (.int (i + 1))
      frame

/-- Counts the current cell down. -/
def decrement : Exec Frame := do
  match ← cell with
  | .block _ => throw .blockDifference
  | .int i =>
    if i = 0 then idle .cellIsZero
    else
      store (.int (i - 1))
      frame

/-- Opens a loop; on a zero cell, or inside a skipped loop, the loop is skipped. -/
def beginLoop : Exec Frame := do
  let s ← state
  update fun s => { s with loops := s.position :: s.loops }
  note (.loopBegun s.position)
  let skipped ← if s.isDead then pure true else do pure (decide ((← cell) = Cell.zero))
  if skipped then
    update fun s => { s with deadDepth := s.deadDepth + 1 }
    idle .deadLoopBegun
  else frame

/-- Closes the innermost loop: jumps back to where it was opened, unless it is skipped. -/
def endLoop : Exec Frame := do
  let s ← state
  match s.loops with
  | [] =>
    let fault := Fault.unmatchedClose s.position
    note (.warned fault)
    throw fault
  | p :: ps =>
    update fun s => { s with loops := ps }
    if s.isDead then
      update fun s => { s with deadDepth := s.deadDepth - 1 }
      idle .deadLoopEnded
    else
      jumpTo p
      frame

/-- Takes the mode from the current cell. -/
def setMode : Exec Frame := do
  let c ← cell
  update fun s => { s with mode := c }
  frame

/-- Performs the operation of the current mode. -/
def operate : Exec (Option Frame) := do
  let s ← state
  match Mode.ofCell? s.mode with
  | none =>
    let fault := Fault.unknownMode s.mode s.position
    note (.warned fault)
    throw fault
  | some m =>
    note (.operating m)
    m.perform

end Operation

open Operation

/-- What an operator does; all but some operations of `?` leave a frame themselves. -/
def Operator.perform (o : Operator) : Exec (Option Frame) :=
  match o with
  | .advance => unlessDead (some <$> advancePointer)
  | .retreat => unlessDead (some <$> retreatPointer)
  | .increment => unlessDead (some <$> Operation.increment)
  | .decrement => unlessDead (some <$> Operation.decrement)
  | .beginLoop => some <$> Operation.beginLoop
  | .endLoop => some <$> Operation.endLoop
  | .setMode => unlessDead (some <$> Operation.setMode)
  | .operate => unlessDead Operation.operate

namespace Exec

/-- Evaluates an operator and puts its frame on the stack. -/
def evaluate (text : String) : Exec Frame := do
  match Operator.ofText? text with
  | none => throw .unknownOperator
  | some o =>
    let c ← cell
    let s ← state
    note (.evaluating o c s.buffer.length s.position)
    let left ← o.perform
    note (.evaluated left.isSome)
    let f ← match left with
      | some f => pure f
      | none => frame
    updateMachine fun m => { m with frames := m.frames.push f }
    return f

/-- The instruction at the current position. -/
def fetch : Exec String := do
  let m ← machine
  if m.position = m.size then throw .endOfProgram
  match Index.get m.program m.position with
  | .ok c => return String.singleton c
  | .error f => throw (.noInstruction f)

/-- Moves on: to the target of a jump, or to the next instruction.  Position zero is no target. -/
def moveOn (s : State) : State :=
  match s.target with
  | some 0 | none => { s with position := s.position + 1 }
  | some p => { s with position := p, target := none }

/-- One step of the program. -/
def advance : Exec Unit := do
  let symbol ← fetch
  update fun s => { s with symbol := some symbol }
  note (.fetched symbol)
  let _ ← evaluate symbol
  update moveOn

end Exec

end TapeMachine
