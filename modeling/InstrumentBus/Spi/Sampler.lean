import InstrumentBus.Spi.Controller

/-!
# A sampling converter

An analogue-to-digital converter whose every frame carries its latest sample, whatever is shifted
into it.
-/

namespace InstrumentBus.Spi

/-- The sampling converter: the number of its bits and its latest sample. -/
structure Sampler where
  /-- The number of bits in a sample. -/
  bits : Nat
  sample : Word
deriving DecidableEq, Repr

namespace Sampler

/-- The converter before its first sample. -/
def powerOn (bits : Nat) : Sampler :=
  { bits, sample := 0 }

/-- The converter after it sampled a number, in two's complement of `bits` bits. -/
def present (s : Sampler) (raw : Int) : Sampler :=
  { s with sample := BitVec.ofInt 32 raw &&& widthMask s.bits }

instance : SerialDevice Sampler where
  exchange s _ := (s.sample, s)

end Sampler

end InstrumentBus.Spi
