import InstrumentBus.Ad5791.Chip
import InstrumentBus.BusSwitch
import InstrumentBus.Ram
import InstrumentBus.Waveform.Player

/-!
# A waveform player on the bench

The player without the rest of the instrument: its sample RAM and its DAC are each behind a switch
of two masters, the first of which is the player.
-/

namespace InstrumentBus.Waveform

/-- A player with the RAM that holds its samples and the DAC that it feeds. -/
structure Bench where
  player : Player
  ram : BusSwitch Ram
  /-- The DAC on its SPI controller. -/
  dac : BusSwitch (Spi.Controller Ad5791.Chip)

namespace Bench

/-- The index of the player on both switches. -/
def playerMaster : Nat := 0

/-- The masters of both switches. -/
def masters : Array String := #["player", "other"]

/-- The bench at reset, with samples in the RAM and sessions of `cycles` ticks. -/
def reset (samples : List Word) (cycles : Nat) : Bench :=
  { player := .reset
    ram := .reset masters { words := samples.toArray }
    dac := .reset masters (.reset .powerOn Ad5791.frameWidth cycles) }

/-- The converter. -/
def chip (b : Bench) : Ad5791.Chip :=
  b.dac.device.device

/-- One step: the SPI controller moves first, then the player. -/
def tick (b : Bench) : Bench :=
  let (player, ram, dac) :=
    b.player.tick (BusSwitch.View.mk playerMaster b.ram) (BusSwitch.View.mk playerMaster b.dac.tick)
  { player, ram := ram.switch, dac := dac.switch }

instance : Clocked Bench where
  tick := tick

/-- The codes that the converter holds during a number of steps, from the present one on, where a
code that does not change counts once; and the bench after them. -/
def watch (b : Bench) : Nat → List Word × Bench
  | 0 => ([b.chip.dac], b)
  | n + 1 =>
    let (codes, after) := b.tick.watch n
    (if codes.head? = some b.chip.dac then codes else b.chip.dac :: codes, after)

end Bench

end InstrumentBus.Waveform
