import TapeMachine.Debugger
import TapeMachine.Main
import TapeMachine.Proofs.Attendance
import TapeMachine.Proofs.BufferDiscipline
import TapeMachine.Proofs.CountingLoop
import TapeMachine.Proofs.DeadLoop
import TapeMachine.Proofs.Dealing
import TapeMachine.Proofs.DecimalEcho
import TapeMachine.Proofs.Delivery
import TapeMachine.Proofs.DumpColumns
import TapeMachine.Proofs.DumpReading
import TapeMachine.Proofs.EndOfInput
import TapeMachine.Proofs.Extent
import TapeMachine.Proofs.Footprint
import TapeMachine.Proofs.FrameSlider
import TapeMachine.Proofs.FrameTrace
import TapeMachine.Proofs.Highlight
import TapeMachine.Proofs.IdleFrames
import TapeMachine.Proofs.Jump
import TapeMachine.Proofs.Outcome
import TapeMachine.Proofs.Publication
import TapeMachine.Proofs.StepFault
import TapeMachine.Proofs.Streams
import TapeMachine.Proofs.Structured
