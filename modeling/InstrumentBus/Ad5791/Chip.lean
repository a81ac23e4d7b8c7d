import InstrumentBus.Ad5791.Frame
import InstrumentBus.Spi.Controller

/-!
# The AD5791 converter

A digital-to-analogue converter of twenty bits with a control register, a clear code and a serial
output for readback. The converter powers up with its output disabled.
-/

namespace InstrumentBus.Ad5791

/-- The registers of the converter and what its serial output shifts next. -/
structure Chip where
  /-- The code at the output. -/
  dac : Word
  control : Word
  /-- The code that a clear loads. -/
  clearCode : Word
  /-- The answer that goes out with the next frame. -/
  readback : Word
deriving DecidableEq, Repr

namespace Chip

/-- The control bit that clamps the output to ground. -/
def groundBit : Word := 0x4#32

/-- The control bit that disconnects the output. -/
def tristateBit : Word := 0x8#32

/-- The control bit that silences the serial output. -/
def silenceBit : Word := 0x20#32

/-- The control bits that exist. -/
def controlMask : Word := 0x3FE#32

/-- The software bit that loads the clear code. -/
def clearBit : Word := 0x2#32

/-- The software bit that returns the converter to its power-on state. -/
def resetBit : Word := 0x4#32

/-- The converter at power-on: the output is clamped and disconnected. -/
def powerOn : Chip :=
  { dac := 0, control := groundBit ||| tristateBit, clearCode := 0, readback := 0 }

/-- Whether the output is clamped to ground or disconnected. -/
def outputDisabled (c : Chip) : Bool :=
  c.control &&& (groundBit ||| tristateBit) != 0

/-- The contents of a register; commands and addresses without a register read zero. -/
def contents (c : Chip) : Option Register → Word
  | some .dac => c.dac
  | some .control => c.control
  | some .clearCode => c.clearCode
  | some .software => 0
  | none => 0

/-- The converter after it took `data` into a register. -/
def store (c : Chip) (r : Option Register) (data : Word) : Chip :=
  match r with
  | some .dac => { c with dac := data }
  | some .control => { c with control := data &&& controlMask }
  | some .clearCode => { c with clearCode := data }
  | some .software =>
    if data &&& resetBit ≠ 0 then powerOn
    else if data &&& clearBit ≠ 0 then { c with dac := c.clearCode }
    else c
  | none => c

/-- What the serial output drives during a frame. -/
def output (c : Chip) : Word :=
  if c.control &&& silenceBit = 0 then c.readback else 0

/-- The converter after it took a frame. -/
def receive (c : Chip) (frame : Word) : Chip :=
  let register := Register.ofFrame? frame
  let answered := { c with readback := 0 }
  if frame &&& readFlag ≠ 0 then
    { answered with readback := (frame &&& ~~~dataMask) ||| c.contents register }
  else answered.store register (frame &&& dataMask)

instance : SerialDevice Chip where
  exchange c frame := (c.output, c.receive frame)

end Chip

end InstrumentBus.Ad5791
