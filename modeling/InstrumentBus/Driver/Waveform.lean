import InstrumentBus.Driver.Arbiter
import InstrumentBus.Waveform.Player

/-!
# The driver of the waveform player

Loading samples needs the sample RAM for the supervisor; playing them needs the RAM and the DAC for
the player. Who starts a waveform proves with a grant that the player owns the DAC.
-/

namespace InstrumentBus

/-- The waveform player and its sample RAM. -/
structure WaveformDriver where
  name : String
  /-- The arbiter in front of the sample RAM. -/
  ram : Arbiter
  /-- The first address of the sample RAM. -/
  ramOrigin : Addr
  /-- The size of the sample RAM in bytes. -/
  ramSize : Nat
  /-- The player's index on the sample RAM's arbiter. -/
  ramMaster : Nat
  /-- The player's index on the DAC's arbiter. -/
  dacMaster : Nat
  /-- Starts the player when it is set, and halts it when it is cleared. -/
  run : RegisterRef
  /-- Keeps the player ready while it is set. -/
  forceStop : RegisterRef
  /-- Makes the player start again after the last sample. -/
  doLoop : RegisterRef
  width : RegisterRef
  /-- The ticks that the player waits after a frame. -/
  spacing : RegisterRef
  /-- Reads 1 unless the player runs. -/
  finishedOrReady : RegisterRef
  /-- Reads 1 while the player is past the last sample. -/
  finished : RegisterRef
  /-- The place of the current sample. -/
  cursor : RegisterRef
  /-- The bound on each wait. -/
  pollLimit : Nat
deriving DecidableEq, Repr

namespace WaveformDriver

/-- The greatest number of samples that the player counts. -/
def maxSamples : Nat := 0xFFFF

/-- The player in the region `name`, with its samples in `<name>_ram`. -/
def ofManifest (id : Nat) (m : Manifest) (name : String) (ramMaster dacMaster : Nat) :
    Except DriverError WaveformDriver := do
  let (ramOrigin, ramSize) ← m.bounds s!"{name}_ram"
  let ram ← Arbiter.ofManifest id m s!"{name}_ram"
  let run ← RegisterRef.resolve m name "run"
  let forceStop ← RegisterRef.resolve m name "force_stop"
  let doLoop ← RegisterRef.resolve m name "do_loop"
  let width ← RegisterRef.resolve m name "wform_width"
  let spacing ← RegisterRef.resolve m name "timer_spacing"
  let finishedOrReady ← RegisterRef.resolve m name "finished_or_ready"
  let finished ← RegisterRef.resolve m name "finished"
  let cursor ← RegisterRef.resolve m name "cursor"
  return { name, ram, ramOrigin, ramSize := ramSize.toNat, ramMaster, dacMaster, run, forceStop,
           doLoop, width, spacing, finishedOrReady, finished, cursor,
           pollLimit := standardPollLimit }

/-- The same driver with another bound on its waits. -/
def withPollLimit (d : WaveformDriver) (limit : Nat) : WaveformDriver :=
  { d with pollLimit := limit }

/-- The number of samples that the player can play. -/
def capacity (d : WaveformDriver) : Nat :=
  min (d.ramSize / 4) maxSamples

variable {τ : Type} [Transport τ]

/-- Clear `run` and wait until the player does not run. -/
def halt (d : WaveformDriver) : Action τ Unit := do
  d.run.set 0
  d.doLoop.set 0
  waitFor "finished_or_ready" d.pollLimit (d.finishedOrReady.reads 1)

/-- Halt the player, put samples into the sample RAM and set the player up. -/
def prepare (d : WaveformDriver) (samples : List Word) (spacing : Word) (loop : Bool) :
    Action τ Unit := do
  d.halt
  let _ ← d.ram.connect supervisorIndex
  Action.ofAccess fun t => Transport.writeWords t d.ramOrigin samples
  d.width.set (BitVec.ofNat 32 samples.length)
  d.spacing.set spacing
  d.doLoop.set (if loop then 1 else 0)
  let _ ← d.ram.connect d.ramMaster

/-- Prepare the player and start it. -/
def play (d : WaveformDriver) (samples : List Word) (spacing : Word) (loop : Bool) :
    Action τ Unit := do
  d.prepare samples spacing loop
  d.run.set 1

/-- Start to play samples. The grant must prove that the player owns the DAC. -/
def start (d : WaveformDriver) (g : Grant) (samples : List Word) (spacing : Word) (loop : Bool) :
    Action (Link τ) Unit := do
  if samples.isEmpty then throw (.outOfRange "an empty waveform")
  if d.capacity < samples.length then throw (.tooLarge (4 * samples.length) d.ramSize)
  Link.locked do
    g.arbiter.check g d.dacMaster
    d.play samples spacing loop

/-- Stop the player, in the middle of a sample if it plays one, and wait until it is ready. -/
def stop (d : WaveformDriver) : Action (Link τ) Unit :=
  Link.locked d.halt

/-- Stop at once. -/
def abort (d : WaveformDriver) : Action (Link τ) Unit := Link.locked do
  d.forceStop.set 1
  d.run.set 0
  d.doLoop.set 0
  d.forceStop.set 0

/-- What the player is doing. -/
def status (d : WaveformDriver) : Action (Link τ) Waveform.State := Link.locked do
  if ← d.finished.reads 1 then return .finished
  if ← d.finishedOrReady.reads 1 then return .ready
  return .running

/-- The place of the current sample. -/
def position (d : WaveformDriver) : Action (Link τ) Word :=
  Link.locked d.cursor.get

end WaveformDriver

end InstrumentBus
