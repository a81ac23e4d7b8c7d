import InstrumentBus.Proofs.Word.Window
import InstrumentBus.Ad5791.Control
import InstrumentBus.Proofs.Ad5791.Frame

/-!
# What the converter gives back

A register of the converter is read with two frames: the first names the register, and the data comes out with
the second. So what a read shows is decided by the converter before both frames (`Chip.shown`), and reading
changes nothing but the answer that is held ready (`receive_readFrame`, `receive_empty`). Numbers come back from
their codes brought into range, in both codings (`Coding.decode_encode`), and the bits of the settings all
exist (`Control.encode_and_controlMask`).
-/

namespace InstrumentBus.Ad5791

variable {chip : Chip}

/-! ## Reading a register -/

theorem readFrame_and_frameMask (r : Register) : readFrame r &&& widthMask frameWidth = readFrame r := by
  cases r <;> decide

theorem readFrame_and_dataMask (r : Register) : readFrame r &&& dataMask = 0 := by
  cases r <;> decide

/-- The frame that names a register puts the contents of the register next to its own address. -/
theorem receive_readFrame (chip : Chip) (r : Register) :
    chip.receive (readFrame r) = { chip with readback := readFrame r ||| chip.contents (some r) } := by
  have read : readFrame r &&& readFlag ≠ 0 := by cases r <;> decide
  have named : Register.ofFrame? (readFrame r) = some r := by cases r <;> decide
  have address : readFrame r &&& ~~~dataMask = readFrame r := by cases r <;> decide
  rw [Chip.receive, named]
  dsimp only
  rw [if_pos read, address]

/-- The empty frame takes the answer away and leaves the registers. -/
theorem receive_empty (chip : Chip) : chip.receive 0 = { chip with readback := 0 } :=
  rfl

/-- What a read of a register shows: its data, unless the serial output is silenced. -/
def Chip.shown (chip : Chip) (r : Register) : Word :=
  if chip.control &&& silenceBit = 0 then chip.contents (some r) &&& dataMask else 0

/-- The frame after the one that names a register brings what the read shows. -/
theorem output_receive_readFrame (chip : Chip) (r : Register) :
    (chip.receive (readFrame r)).output &&& widthMask frameWidth &&& dataMask = chip.shown r := by
  have inside : widthMask frameWidth &&& dataMask = dataMask := by decide
  rw [receive_readFrame, Chip.output, Chip.shown, BitVec.and_assoc, inside]
  dsimp only
  split
  · rw [BitVec.and_or_distrib_right, readFrame_and_dataMask]
    exact BitVec.zero_or
  · exact BitVec.zero_and

/-! ## Codes of numbers -/

theorem clampCode_bounds (n : Int) : leastCode ≤ clampCode n ∧ clampCode n ≤ greatestCode := by
  unfold clampCode leastCode greatestCode
  omega

theorem clampCode_clampCode (n : Int) : clampCode (clampCode n) = clampCode n := by
  unfold clampCode leastCode greatestCode
  omega

/-- The code in offset binary is the distance from the least number. -/
theorem Coding.toNat_encode_offsetBinary (n : Int) :
    (offsetBinary.encode n).toNat = (clampCode n - leastCode).toNat := by
  obtain ⟨least, greatest⟩ := clampCode_bounds n
  unfold leastCode greatestCode at *
  rw [encode, BitVec.toNat_ofInt, leastCode, Int.emod_eq_of_lt (by omega) (by omega)]

theorem toNat_and_dataMask (w : Word) : (w &&& dataMask).toNat = w.toNat % 2 ^ dataWidth :=
  toNat_and_widthMask w dataWidth

theorem Coding.encode_and_dataMask (coding : Coding) (n : Int) :
    coding.encode n &&& dataMask = coding.encode n := by
  cases coding with
  | twosComplement => rw [encode, BitVec.and_assoc, BitVec.and_self]
  | offsetBinary =>
    obtain ⟨least, greatest⟩ := clampCode_bounds n
    unfold leastCode greatestCode at *
    apply BitVec.eq_of_toNat_eq
    rw [toNat_and_dataMask, toNat_encode_offsetBinary, leastCode, dataWidth]
    omega

/-- A number comes back from its code, brought into range. -/
theorem Coding.decode_encode (coding : Coding) (n : Int) : coding.decode (coding.encode n) = clampCode n := by
  obtain ⟨least, greatest⟩ := clampCode_bounds n
  unfold leastCode greatestCode at *
  cases coding with
  | twosComplement =>
    have code : (twosComplement.encode n).toNat = (clampCode n % 2 ^ 32).toNat % 2 ^ 20 := by
      rw [encode, toNat_and_dataMask, BitVec.toNat_ofInt]
      rfl
    show ((twosComplement.encode n).setWidth 20).toInt = _
    rw [BitVec.toInt_setWidth, code, Int.bmod]
    omega
  | offsetBinary =>
    rw [decode, encode_and_dataMask, toNat_encode_offsetBinary, leastCode]
    omega

/-! ## Settings -/

theorem Control.flag_and (set : Bool) (place : Nat) (mask : Word) :
    flag set place &&& mask = flag (set && mask.getLsbD place) place := by
  cases set with
  | false => exact BitVec.zero_and
  | true =>
    show BitVec.twoPow 32 place &&& mask = _
    rw [BitVec.twoPow_and]
    cases mask.getLsbD place <;> rfl

/-- Masking settings is masking each of them. -/
theorem Control.encode_and (c : Control) (mask : Word) :
    (WordCode.encode c : Word) &&& mask =
      flag (c.buffered && mask.getLsbD 1) 1 ||| flag (c.grounded && mask.getLsbD 2) 2 |||
        flag (c.tristate && mask.getLsbD 3) 3 ||| flag (c.offsetBinary && mask.getLsbD 4) 4 |||
        flag (c.silent && mask.getLsbD 5) 5 ||| (BitVec.ofNat 32 c.span.code <<< 6 &&& mask) := by
  simp only [← flag_and, ← BitVec.and_or_distrib_right]
  rfl

theorem Control.encode_and_controlMask (c : Control) :
    (WordCode.encode c : Word) &&& Chip.controlMask = WordCode.encode c := by
  have span : BitVec.ofNat 32 c.span.code <<< 6 &&& Chip.controlMask = BitVec.ofNat 32 c.span.code <<< 6 := by
    cases c.span <;> decide
  rw [encode_and, span]
  simp [Chip.controlMask]
  rfl

theorem Control.encode_and_dataMask (c : Control) :
    (WordCode.encode c : Word) &&& dataMask = WordCode.encode c := by
  have inside : Chip.controlMask &&& dataMask = Chip.controlMask := by decide
  rw [← encode_and_controlMask, BitVec.and_assoc, inside]

theorem Control.encode_and_silenceBit (c : Control) :
    (WordCode.encode c : Word) &&& Chip.silenceBit = if c.silent then Chip.silenceBit else 0 := by
  have span : BitVec.ofNat 32 c.span.code <<< 6 &&& Chip.silenceBit = 0 := by
    cases c.span <;> decide
  rw [encode_and, span]
  simp [Chip.silenceBit, flag]

/-- Settings that silence the serial output are not the zero that the silent output shows. -/
theorem Control.encode_ne_zero {c : Control} (silent : c.silent = true) : (WordCode.encode c : Word) ≠ 0 := by
  intro zero
  have bit := c.encode_and_silenceBit
  rw [zero, silent] at bit
  exact absurd bit (by decide)

/-! ## Writing a register -/

theorem receive_settings (chip : Chip) (c : Control) :
    chip.receive (writeFrame .control (WordCode.encode c)) =
      { chip with control := WordCode.encode c, readback := 0 } := by
  rw [receive_writeFrame, Control.encode_and_dataMask, Chip.store, Control.encode_and_controlMask]

/-- Settings are shown, unless they silence the serial output. -/
theorem shown_settings {c : Control} (holds : chip.control = WordCode.encode c) :
    chip.shown .control = if c.silent then 0 else WordCode.encode c := by
  rw [Chip.shown, Chip.contents, holds, Control.encode_and_silenceBit, Control.encode_and_dataMask]
  cases c.silent <;> rfl

theorem receive_reset (chip : Chip) :
    chip.receive (writeFrame .software (WordCode.encode { Software.none with reset := true })) = Chip.powerOn := by
  rw [receive_writeFrame]
  rfl

theorem receive_clear (chip : Chip) :
    chip.receive (writeFrame .software (WordCode.encode { Software.none with clear := true })) =
      { chip with dac := chip.clearCode, readback := 0 } := by
  rw [receive_writeFrame]
  rfl

theorem receive_output (chip : Chip) (coding : Coding) (n : Int) :
    chip.receive (writeFrame .dac (coding.encode n)) = { chip with dac := coding.encode n, readback := 0 } := by
  rw [receive_writeFrame, Coding.encode_and_dataMask]
  rfl

theorem receive_clearCode (chip : Chip) (coding : Coding) (n : Int) :
    chip.receive (writeFrame .clearCode (coding.encode n)) =
      { chip with clearCode := coding.encode n, readback := 0 } := by
  rw [receive_writeFrame, Coding.encode_and_dataMask]
  rfl

end InstrumentBus.Ad5791
