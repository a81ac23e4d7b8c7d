import InstrumentBus.Ad5791.Chip
import InstrumentBus.AddressMap
import InstrumentBus.BusSwitch
import InstrumentBus.ControlLoop.Engine
import InstrumentBus.Coprocessor
import InstrumentBus.Ram
import InstrumentBus.Spi.Sampler
import InstrumentBus.Waveform.Player

/-!
# The instrument board

The board wires the blocks of the instrument together: a DAC and an ADC on SPI controllers, the
waveform player with its sample RAM, the co-processor with its program RAM, and the control loop's
parameters and command block. Every device that several masters use is behind a bus switch, whose
selection only the supervisor can reach. Each processor has an address map of its own.
-/

namespace InstrumentBus

/-- What can be chosen when a board is assembled. -/
structure Board.Config where
  /-- The ticks from the opening of an SPI session to the last tick before its frame is shifted. -/
  spiCycles : Nat
  /-- The number of bits in a sample of the ADC. -/
  adcBits : Nat
  /-- The size of each of the two RAMs in bytes. -/
  ramBytes : Word
deriving DecidableEq, Repr

/-- The usual board. -/
def Board.Config.standard : Board.Config :=
  { spiCycles := 4, adcBits := 18, ramBytes := 0x1000 }

/-- What answers in a region of the board's address maps. -/
inductive Board.Block where
  | dac0
  | adc0
  /-- The selection in front of the DAC. -/
  | dac0Select
  /-- The selection in front of the ADC. -/
  | adc0Select
  /-- The selection in front of the sample RAM. -/
  | wf0RamSelect
  /-- The selection in front of the program RAM. -/
  | pico0RamSelect
  | wf0
  | wf0Ram
  | pico0
  /-- The co-processor's general purpose registers. -/
  | pico0Regs
  | pico0Ram
  | clParams
  | cl
deriving DecidableEq, Repr

/-- Why a board cannot be assembled. -/
inductive Board.Error where
  /-- A register file cannot be laid out. -/
  | layout (cause : LayoutError)
  /-- The regions do not fit together. -/
  | map (cause : AddressMap.Error)
deriving DecidableEq, Repr

/-- The text shown for an assembly error. -/
def Board.Error.message : Board.Error → String
  | .layout cause => cause.message
  | .map cause => cause.message

/-- The name of an assembly error. -/
def Board.Error.title : Board.Error → String
  | .layout cause => cause.title
  | .map cause => cause.title

instance : Diagnostic Board.Error :=
  ⟨Board.Error.title, Board.Error.message⟩

/-- The parameters of the control loop: the supervisor sets the gains, the timing and the setpoint,
the co-processor reports what it measured. -/
def Board.paramsLayout : Layout :=
  { fields := #[
      { name := "cl_I", width := 32, access := .ofWriter (some .supervisor) },
      { name := "cl_P", width := 32, access := .ofWriter (some .supervisor) },
      { name := "deltaT", width := 32, access := .ofWriter (some .supervisor) },
      { name := "setpt", width := 32, access := .ofWriter (some .supervisor) },
      { name := "zset", width := 32, access := .ofWriter (some .coprocessor) },
      { name := "zpos", width := 32, access := .ofWriter (some .coprocessor) }] }

/-- The board. -/
structure Board where
  /-- The DAC on its SPI controller. -/
  dac0 : BusSwitch (Spi.Controller Ad5791.Chip)
  /-- The ADC on its SPI controller. -/
  adc0 : BusSwitch (Spi.Controller Spi.Sampler)
  wf0 : Waveform.Player
  wf0Ram : BusSwitch Ram
  pico0 : Coprocessor
  pico0Ram : BusSwitch Ram
  clParams : RegisterFile Board.paramsLayout
  cl : ControlLoop.Engine
  supervisorMap : AddressMap Board.Block
  coprocessorMap : AddressMap Board.Block

namespace Board

/-! ## Masters -/

/-- The supervisor's index on every switch. -/
def supervisorMaster : Nat := 0

/-- The co-processor's index on every switch that it is behind. -/
def coprocessorMaster : Nat := 1

/-- The player's index on the DAC's switch. -/
def dacPlayerMaster : Nat := 2

/-- The player's index on the sample RAM's switch. -/
def ramPlayerMaster : Nat := 1

/-- The masters of the DAC. -/
def dac0Masters : Array String := #["supervisor", "coprocessor", "waveform"]

/-- The masters of the ADC. -/
def adc0Masters : Array String := #["supervisor", "coprocessor"]

/-- The masters of the sample RAM. -/
def wf0RamMasters : Array String := #["supervisor", "player"]

/-- The masters of the program RAM. -/
def pico0RamMasters : Array String := #["supervisor", "coprocessor"]

/-- The index of a master on the switch in front of a device. -/
def masterIndex? (device master : String) : Option Nat :=
  if device = "dac0" then dac0Masters.idxOf? master
  else if device = "adc0" then adc0Masters.idxOf? master
  else if device = "wf0_ram" then wf0RamMasters.idxOf? master
  else if device = "pico0_ram" then pico0RamMasters.idxOf? master
  else none

/-! ## Address maps -/

/-- The layout of an SPI controller on the DAC. -/
def dacLayout : Layout :=
  Spi.Controller.layout Ad5791.frameWidth

open AddressMap (Region) in
/-- The regions that the supervisor sees. -/
def supervisorRegions (c : Config) : List (Region Block) := [
  .ofLayout "dac0" 0x2000 dacLayout .dac0,
  .ofLayout "adc0" 0x2100 (Spi.Controller.layout c.adcBits) .adc0,
  .ofLayout "dac0_pi" 0x2200 (BusSwitch.controlLayout dac0Masters.size) .dac0Select,
  .ofLayout "adc0_pi" 0x2204 (BusSwitch.controlLayout adc0Masters.size) .adc0Select,
  .ofLayout "wf0_ram_pi" 0x2208 (BusSwitch.controlLayout wf0RamMasters.size) .wf0RamSelect,
  .ofLayout "pico0_ram_pi" 0x220C (BusSwitch.controlLayout pico0RamMasters.size) .pico0RamSelect,
  .ofLayout "wf0" 0x3000 Waveform.Player.layout .wf0,
  .plain "wf0_ram" 0x4000 c.ramBytes .wf0Ram,
  .ofLayout "pico0" 0x5000 Coprocessor.controlLayout .pico0,
  .ofLayout "pico0_regs" 0x5100 Coprocessor.debugLayout .pico0Regs,
  .plain "pico0_ram" 0x6000 c.ramBytes .pico0Ram,
  .ofLayout "cl_params" 0x7000 paramsLayout .clParams,
  .ofLayout "cl" 0x7100 ControlLoop.Engine.layout .cl]

open AddressMap (Region) in
/-- The regions that the co-processor sees. -/
def coprocessorRegions (c : Config) : List (Region Block) := [
  .plain "pico0_ram" Coprocessor.resetVector c.ramBytes .pico0Ram,
  .ofLayout "dac0" 0x20000 dacLayout .dac0,
  .ofLayout "adc0" 0x20100 (Spi.Controller.layout c.adcBits) .adc0,
  .ofLayout "cl_params" 0x100000 paramsLayout .clParams]

/-- The map of some regions. -/
def mapOf (regions : List (AddressMap.Region Block)) : Except Error (AddressMap Block) :=
  match AddressMap.Draft.empty.addAll regions with
  | .ok draft => .ok draft.build
  | .error e => .error (.map e)

/-- The board at reset. -/
def assemble (c : Config) : Except Error Board := do
  let adc ← (Spi.Controller.build (Spi.Sampler.powerOn c.adcBits) c.adcBits c.spiCycles).mapError
    .layout
  let supervisorMap ← mapOf (supervisorRegions c)
  let coprocessorMap ← mapOf (coprocessorRegions c)
  return {
    dac0 := .reset dac0Masters (.reset .powerOn Ad5791.frameWidth c.spiCycles)
    adc0 := .reset adc0Masters adc
    wf0 := .reset
    wf0Ram := .reset wf0RamMasters (.zero c.ramBytes.toNat)
    pico0 := .reset
    pico0Ram := .reset pico0RamMasters (.zero c.ramBytes.toNat)
    clParams := .zero _
    cl := .reset
    supervisorMap
    coprocessorMap }

/-- The address map of a processor. -/
def map (b : Board) : Side → AddressMap Block
  | .supervisor => b.supervisorMap
  | .coprocessor => b.coprocessorMap

/-- The manifest of what a processor sees. -/
def manifest (b : Board) (side : Side) : Manifest :=
  (b.map side).manifest

/-- The DAC. -/
def dac (b : Board) : Ad5791.Chip :=
  b.dac0.device.device

end Board

end InstrumentBus
