import InstrumentBus.Spi.Controller

/-!
# A delay line

A serial device that answers every frame with the one before it, as a shift register of one frame
does.
-/

namespace InstrumentBus.Spi

/-- The delay line, by the last frame that went in. -/
structure DelayLine where
  last : Word
deriving DecidableEq, Repr

/-- The delay line before its first frame. -/
def DelayLine.powerOn : DelayLine :=
  { last := 0 }

instance : SerialDevice DelayLine where
  exchange d frame := (d.last, { last := frame })

end InstrumentBus.Spi
