import InstrumentBus.BusSwitch
import InstrumentBus.Coprocessor
import InstrumentBus.Ram

/-!
# A co-processor on the bench

The co-processor without the rest of the instrument: its RAM is behind a switch of two masters, the
first of which is the core.
-/

namespace InstrumentBus

/-- A co-processor with its RAM. -/
structure Coprocessor.Bench where
  core : Coprocessor
  ram : BusSwitch Ram

namespace Coprocessor.Bench

/-- The index of the core on the switch. -/
def coreMaster : Nat := 0

/-- The bench at reset, with a RAM of `bytes` bytes. -/
def reset (bytes : Nat) : Bench :=
  { core := .reset, ram := .reset #["core", "other"] (.zero bytes) }

/-- One step of the core. -/
def tick (b : Bench) : Bench :=
  let (core, ram) := b.core.tick (BusSwitch.View.mk coreMaster b.ram)
  { core, ram := ram.switch }

instance : Clocked Bench where
  tick := tick

end Coprocessor.Bench

end InstrumentBus
