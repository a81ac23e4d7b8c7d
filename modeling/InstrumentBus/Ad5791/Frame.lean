import InstrumentBus.Word

/-!
# Frames of the AD5791

The AD5791 takes frames of 24 bits: a read flag, the address of a register in three bits and its
data in twenty. The data of a read comes out with the frame that follows it.
-/

namespace InstrumentBus.Ad5791

/-- The number of bits in a frame. -/
def frameWidth : Nat := 24

/-- The number of data bits in a frame. -/
def dataWidth : Nat := 20

/-- The bits of a frame that carry data. -/
def dataMask : Word := 0xFFFFF#32

/-- The flag of a frame that reads a register. -/
def readFlag : Word := 0x800000#32

/-- The registers of the converter. -/
inductive Register where
  /-- The code at the output. -/
  | dac
  | control
  /-- The code that a clear loads. -/
  | clearCode
  | software
deriving DecidableEq, Repr

/-- The address of a register in a frame. -/
def Register.address : Register → Word
  | .dac => 1
  | .control => 2
  | .clearCode => 3
  | .software => 4

/-- The register that a frame addresses, if there is one. -/
def Register.ofFrame? (frame : Word) : Option Register :=
  let addr := (frame >>> 20) &&& 0b111#32
  if addr = 1 then some .dac
  else if addr = 2 then some .control
  else if addr = 3 then some .clearCode
  else if addr = 4 then some .software
  else none

/-- The frame that writes the low twenty bits of `data` to a register. -/
def writeFrame (r : Register) (data : Word) : Word :=
  (r.address <<< 20) ||| (data &&& dataMask)

/-- The frame that reads a register. -/
def readFrame (r : Register) : Word :=
  readFlag ||| writeFrame r 0

end InstrumentBus.Ad5791
