import InstrumentBus.Ad5791.Chip

/-!
# What the converter makes of a frame

A frame that writes a register fits the wires, names its register and carries twenty bits of data, so the
converter stores exactly these bits (`receive_writeFrame`).
-/

namespace InstrumentBus.Ad5791

/-- Masking a frame that writes a register is masking its two parts. -/
theorem writeFrame_and (r : Register) (data mask : Word) :
    writeFrame r data &&& mask = (r.address <<< 20 &&& mask) ||| (data &&& (dataMask &&& mask)) := by
  rw [writeFrame, BitVec.and_or_distrib_right, BitVec.and_assoc]

theorem writeFrame_and_frameMask (r : Register) (data : Word) :
    writeFrame r data &&& widthMask frameWidth = writeFrame r data := by
  have address : r.address <<< 20 &&& widthMask frameWidth = r.address <<< 20 := by
    cases r <;> decide
  have inside : dataMask &&& widthMask frameWidth = dataMask := by
    decide
  rw [writeFrame_and, address, inside]
  rfl

theorem writeFrame_and_dataMask (r : Register) (data : Word) :
    writeFrame r data &&& dataMask = data &&& dataMask := by
  have address : r.address <<< 20 &&& dataMask = 0#32 := by
    cases r <;> decide
  rw [writeFrame_and, address, BitVec.and_self, BitVec.zero_or]

theorem writeFrame_and_readFlag (r : Register) (data : Word) :
    writeFrame r data &&& readFlag = 0#32 := by
  have address : r.address <<< 20 &&& readFlag = 0#32 := by
    cases r <;> decide
  have apart : dataMask &&& readFlag = 0#32 := by
    decide
  rw [writeFrame_and, address, apart, BitVec.and_zero, BitVec.zero_or]

theorem ofFrame?_writeFrame (r : Register) (data : Word) :
    Register.ofFrame? (writeFrame r data) = some r := by
  have address : r.address <<< 20 >>> 20 = r.address := by
    cases r <;> decide
  have low : (data &&& dataMask) >>> 20 = 0#32 := by
    have none : dataMask >>> 20 = 0#32 := by decide
    rw [BitVec.ushiftRight_and_distrib, none, BitVec.and_zero]
  have shifted : writeFrame r data >>> 20 = r.address := by
    rw [writeFrame, BitVec.ushiftRight_or_distrib, address, low, BitVec.or_zero]
  rw [Register.ofFrame?, shifted]
  cases r <;> decide

/-- A frame that writes a register stores its data there, and nothing else but the answer changes. -/
theorem receive_writeFrame (c : Chip) (r : Register) (data : Word) :
    c.receive (writeFrame r data) = { c with readback := 0 }.store (some r) (data &&& dataMask) := by
  have write : ¬writeFrame r data &&& readFlag ≠ 0 := fun read => read (writeFrame_and_readFlag r data)
  rw [Chip.receive, ofFrame?_writeFrame]
  dsimp only
  rw [if_neg write, writeFrame_and_dataMask]

end InstrumentBus.Ad5791
