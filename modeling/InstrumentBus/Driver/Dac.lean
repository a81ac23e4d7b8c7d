import InstrumentBus.Ad5791.Control
import InstrumentBus.Driver.Spi

/-!
# The driver of the DAC

The driver speaks to an AD5791 through its SPI controller. The coding of numbers is fixed when the
driver is made, and the driver sets the converter's coding bit accordingly on every write of the
control register.
-/

namespace InstrumentBus

open Ad5791 (Coding Control Software)

/-- An AD5791 on an SPI controller. -/
structure DacDriver where
  spi : SpiDriver
  coding : Coding
  /-- The voltage of the least code. -/
  lowVolts : Float
  /-- The voltage of the greatest code. -/
  highVolts : Float

namespace DacDriver

/-- The converter in the region `name`, with references of 10 V either way. -/
def ofManifest (id : Nat) (m : Manifest) (name : String) (coding : Coding) :
    Except DriverError DacDriver := do
  let spi ← SpiDriver.ofManifest id m name
  return { spi, coding, lowVolts := -10.0, highVolts := 10.0 }

/-- The same driver with other references. -/
def withReferences (d : DacDriver) (low high : Float) : DacDriver :=
  { d with lowVolts := low, highVolts := high }

/-! ## Volts -/

/-- The number of steps from the least to the greatest code. -/
def steps : Float := 1048575.0

/-- The number whose distance from the least one is given in 64 bits, brought into range. The sum is made in
64 bits, too, and wraps around for the distances that are close to the least one of these. -/
def numberAt (distance : Int64) : Int :=
  Ad5791.clampCode (distance + Int64.ofInt Ad5791.leastCode).toInt

/-- The number whose voltage is `volts`, rounded toward the least one and brought into range. -/
def numberOfVolts (d : DacDriver) (volts : Float) : Int :=
  let fraction := (volts - d.lowVolts) / (d.highVolts - d.lowVolts)
  numberAt (fraction * steps).toInt64

/-- The voltage of a number of 32 bits. -/
def voltsOfNumber (d : DacDriver) (n : Int) : Float :=
  let distance := Int32.ofInt n - Int32.ofInt Ad5791.leastCode
  (d.highVolts - d.lowVolts) / steps * Float.ofInt distance.toInt + d.lowVolts

/-! ## Registers of the converter -/

variable {τ : Type} [Transport τ]

/-- Read a register of the converter: its data comes with the frame after the read. -/
def readBack (d : DacDriver) (g : Grant) (r : Ad5791.Register) : Action τ Word := do
  let _ ← d.spi.exchange g (Ad5791.readFrame r)
  let answer ← d.spi.exchange g 0
  return answer &&& Ad5791.dataMask

/-- The settings as this driver writes them: with the bit for its own coding. -/
def settings (d : DacDriver) (c : Control) : Control :=
  { c with offsetBinary := d.coding == .offsetBinary }

/-- Write the control register and confirm it by reading it back. -/
def writeControl (d : DacDriver) (g : Grant) (c : Control) : Action (Link τ) Control := do
  let c := d.settings c
  let written := WordCode.encode c &&& Ad5791.dataMask
  Link.locked do
    let _ ← d.spi.exchange g (Ad5791.writeFrame .control written)
    let read ← d.readBack g .control
    if read ≠ written then throw (.echoMismatch written read)
  return c

/-- Read the control register. -/
def readControl (d : DacDriver) (g : Grant) : Action (Link τ) Control := do
  let w ← Link.locked (d.readBack g .control)
  match WordCode.decode? w with
  | some c => return c
  | none => throw (.fault .undefinedCode)

/-- Issue software commands. -/
def command (d : DacDriver) (g : Grant) (s : Software) : Action (Link τ) Unit := do
  let _ ← d.spi.send g (Ad5791.writeFrame .software (WordCode.encode s))

/-- Return the converter to its power-on state. -/
def reset (d : DacDriver) (g : Grant) : Action (Link τ) Unit :=
  d.command g { Software.none with reset := true }

/-- Load the clear code into the DAC register. -/
def clear (d : DacDriver) (g : Grant) : Action (Link τ) Unit :=
  d.command g { Software.none with clear := true }

/-- Load the DAC register to the output. -/
def load (d : DacDriver) (g : Grant) : Action (Link τ) Unit :=
  d.command g { Software.none with load := true }

/-- Reset the converter and drive its output through the buffer. -/
def configure (d : DacDriver) (g : Grant) : Action (Link τ) Control := do
  d.reset g
  d.writeControl g .enabled

/-! ## The output -/

/-- Write a number to a register of the converter. -/
def writeNumber (d : DacDriver) (g : Grant) (r : Ad5791.Register) (n : Int) :
    Action (Link τ) Unit := do
  let _ ← d.spi.send g (Ad5791.writeFrame r (d.coding.encode n))

/-- Read the number in a register of the converter. -/
def readNumber (d : DacDriver) (g : Grant) (r : Ad5791.Register) : Action (Link τ) Int := do
  return d.coding.decode (← Link.locked (d.readBack g r))

/-- Set the output to a number, brought into range. -/
def setNumber (d : DacDriver) (g : Grant) (n : Int) : Action (Link τ) Unit :=
  d.writeNumber g .dac n

/-- The number at the output. -/
def number (d : DacDriver) (g : Grant) : Action (Link τ) Int :=
  d.readNumber g .dac

/-- Set the output to a voltage and give the number that was written. -/
def setVolts (d : DacDriver) (g : Grant) (volts : Float) : Action (Link τ) Int := do
  let n := d.numberOfVolts volts
  d.setNumber g n
  return n

/-- The voltage at the output. -/
def volts (d : DacDriver) (g : Grant) : Action (Link τ) Float := do
  return d.voltsOfNumber (← d.number g)

/-- Set the number that a clear loads. -/
def setClearCode (d : DacDriver) (g : Grant) (n : Int) : Action (Link τ) Unit :=
  d.writeNumber g .clearCode n

/-- The number that a clear loads. -/
def clearCode (d : DacDriver) (g : Grant) : Action (Link τ) Int :=
  d.readNumber g .clearCode

end DacDriver

end InstrumentBus
