import InstrumentBus.Proofs.Ad5791.Frame
import InstrumentBus.Proofs.Driver.Triple
import InstrumentBus.Proofs.Spi.Controller

/-!
# The coding that the converter expects

One bit of the control register tells the converter in which of its two codings the codes are. A driver marks
its own coding in every frame that writes this register (`DacDriver.Sends.marks`), and the other frames leave
the bit as it is or disable the output. So a converter that takes no other write of its control register than
those that mark a coding expects that coding while its output is enabled (`Chip.Expects.feed`).
-/

namespace InstrumentBus

namespace Ad5791

variable {chip : Chip} {coding : Coding} {frame : Word}

/-- The place of the bit for the coding, in the control register and in a frame that writes it. -/
def codingPlace : Nat := 4

/-- A frame that writes the control register. -/
def WritesControl (frame : Word) : Prop :=
  frame &&& readFlag = 0 ∧ Register.ofFrame? frame = some .control

/-- A frame marks a coding if it does in case it writes the control register. -/
def Coding.Marks (coding : Coding) (frame : Word) : Prop :=
  WritesControl frame → frame.getLsbD codingPlace = (coding == .offsetBinary)

/-- The converter expects this coding while its output is enabled. -/
def Chip.Expects (chip : Chip) (coding : Coding) : Prop :=
  chip.outputDisabled = false → chip.control.getLsbD codingPlace = (coding == .offsetBinary)

theorem Chip.expects_powerOn (coding : Coding) : powerOn.Expects coding :=
  fun enabled => absurd enabled (by decide)

theorem getLsbD_and_dataMask (w : Word) : (w &&& dataMask).getLsbD codingPlace = w.getLsbD codingPlace := by
  have inside : dataMask.getLsbD codingPlace = true := by decide
  rw [BitVec.getLsbD_and, inside, Bool.and_true]

/-- The converter takes the bit from a frame that writes the control register, and keeps it otherwise or is
back at power-on. -/
theorem Chip.receive_control_cases (chip : Chip) (frame : Word) :
    (WritesControl frame ∧
      (chip.receive frame).control.getLsbD codingPlace = frame.getLsbD codingPlace) ∨
    (chip.receive frame).control = chip.control ∨ (chip.receive frame).control = powerOn.control := by
  unfold receive
  dsimp only
  split
  · exact .inr (.inl rfl)
  · next write =>
    cases register : Register.ofFrame? frame with
    | none => exact .inr (.inl rfl)
    | some r =>
      cases r with
      | dac => exact .inr (.inl rfl)
      | clearCode => exact .inr (.inl rfl)
      | control =>
        refine .inl ⟨⟨Decidable.not_not.1 write, register⟩, ?_⟩
        have kept : controlMask.getLsbD codingPlace = true := by decide
        show (frame &&& dataMask &&& controlMask).getLsbD codingPlace = _
        rw [BitVec.getLsbD_and, kept, Bool.and_true, getLsbD_and_dataMask]
      | software =>
        dsimp only [store]
        split
        · exact .inr (.inr rfl)
        · split
          · exact .inr (.inl rfl)
          · exact .inr (.inl rfl)

/-- A frame that marks the coding leaves a converter that expects it. -/
theorem Chip.Expects.receive (expects : chip.Expects coding) (marks : coding.Marks frame) :
    (chip.receive frame).Expects coding := by
  intro enabled
  rcases chip.receive_control_cases frame with ⟨writes, taken⟩ | kept | reset
  · rw [taken]
    exact marks writes
  · rw [kept]
    refine expects ?_
    rwa [outputDisabled, ← kept]
  · rw [outputDisabled, reset] at enabled
    exact absurd enabled (by decide)

/-- A converter that takes only frames which mark the coding expects it from then on. -/
theorem Chip.Expects.feed {frames : List Word} (expects : chip.Expects coding)
    (marks : ∀ frame ∈ frames, coding.Marks frame) : (SerialDevice.feed chip frames).Expects coding := by
  induction frames generalizing chip with
  | nil => exact expects
  | cons frame frames ih =>
    exact ih (expects.receive (marks frame (.head _))) fun later listed => marks later (.tail _ listed)

theorem Control.getLsbD_encode (c : Control) :
    (WordCode.encode c : Word).getLsbD codingPlace = c.offsetBinary := by
  obtain ⟨buffered, grounded, tristate, offsetBinary, silent, span⟩ := c
  cases buffered <;> cases grounded <;> cases tristate <;> cases offsetBinary <;> cases silent <;>
    cases span <;> decide

end Ad5791

open Ad5791 (WritesControl)

/-- Every frame of a driver marks the coding of the driver, and fits the wires. -/
theorem DacDriver.Sends.marks {d : DacDriver} {frame : Word} (sends : d.Sends frame) :
    d.coding.Marks frame ∧ frame &&& widthMask Ad5791.frameWidth = frame := by
  cases sends with
  | empty => exact ⟨fun writes => absurd writes.2 (by decide), by decide⟩
  | read r =>
    have reads : Ad5791.readFrame r &&& Ad5791.readFlag ≠ 0 := by cases r <;> decide
    exact ⟨fun writes => absurd writes.1 reads, by cases r <;> decide⟩
  | software s =>
    refine ⟨fun writes => ?_, Ad5791.writeFrame_and_frameMask _ _⟩
    cases (Ad5791.ofFrame?_writeFrame _ _).symm.trans writes.2
  | @number r n other =>
    refine ⟨fun writes => absurd ?_ other, Ad5791.writeFrame_and_frameMask _ _⟩
    exact Option.some.inj ((Ad5791.ofFrame?_writeFrame _ _).symm.trans writes.2)
  | control c =>
    refine ⟨fun _ => ?_, Ad5791.writeFrame_and_frameMask _ _⟩
    rw [← Ad5791.getLsbD_and_dataMask, Ad5791.writeFrame_and_dataMask, Ad5791.getLsbD_and_dataMask,
      Ad5791.getLsbD_and_dataMask, Ad5791.Control.getLsbD_encode]
    rfl

end InstrumentBus
