import InstrumentBus.Driver.Spi

/-!
# The driver of the ADC

Every frame of the ADC carries its latest sample in two's complement.
-/

namespace InstrumentBus

/-- A sampling converter on an SPI controller. -/
structure AdcDriver where
  spi : SpiDriver
  /-- The number of bits in a sample. -/
  bits : Nat
  /-- The span of the differential input in volts. -/
  range : Float
  /-- Whether the negative input is the inverted positive one. -/
  singleEnded : Bool

namespace AdcDriver

/-- The converter in the region `name`: 18 bits, 10.24 V, single ended. -/
def ofManifest (id : Nat) (m : Manifest) (name : String) : Except DriverError AdcDriver := do
  let spi ← SpiDriver.ofManifest id m name
  return { spi, bits := 18, range := 10.24, singleEnded := true }

/-- The same driver for samples of another width, from 2 to 32 bits. -/
def withBits (d : AdcDriver) (bits : Nat) : Except DriverError AdcDriver :=
  if 2 ≤ bits ∧ bits ≤ 32 then .ok { d with bits }
  else .error (.outOfRange s!"ADC width of {bits} bits")

/-- The same driver for another span. -/
def withRange (d : AdcDriver) (volts : Float) : AdcDriver :=
  { d with range := volts }

/-- The same driver with its negative input inverted or not. -/
def withSingleEnded (d : AdcDriver) (singleEnded : Bool) : AdcDriver :=
  { d with singleEnded }

/-- The voltage of one step. -/
def voltsPerStep (d : AdcDriver) : Float :=
  let step := d.range / Float.ofNat (2 ^ d.bits)
  if d.singleEnded then step * 2.0 else step

variable {τ : Type} [Transport τ]

/-- The number sampled. -/
def number (d : AdcDriver) (g : Grant) : Action (Link τ) Int := do
  return Word.signed d.bits (← d.spi.send g 0)

/-- The voltage sampled. -/
def volts (d : AdcDriver) (g : Grant) : Action (Link τ) Float := do
  return Float.ofInt (← d.number g) * d.voltsPerStep

end AdcDriver

end InstrumentBus
