import InstrumentBus.Driver.Arbiter
import InstrumentBus.Spi.Controller

/-!
# The driver of an SPI controller

Sending a frame goes through one session of the controller: release what an earlier session left,
wait until the controller is ready, put the frame in place, arm, wait for the end of the frame, take
the answer and release the session. The supervisor must own the controller.
-/

namespace InstrumentBus

/-- An SPI controller behind its arbiter. -/
structure SpiDriver where
  name : String
  /-- The arbiter in front of the controller. -/
  arbiter : Arbiter
  /-- Reads 1 while no session is open. -/
  readyToArm : RegisterRef
  /-- Reads 1 while a session is complete. -/
  finished : RegisterRef
  arm : RegisterRef
  /-- The frame that was shifted in. -/
  fromSlave : RegisterRef
  /-- The frame to be shifted out. -/
  toSlave : RegisterRef
  /-- The bound on each wait. -/
  pollLimit : Nat
deriving DecidableEq, Repr

namespace SpiDriver

/-- The controller in the region `name`. -/
def ofManifest (id : Nat) (m : Manifest) (name : String) : Except DriverError SpiDriver := do
  let arbiter ← Arbiter.ofManifest id m name
  let readyToArm ← RegisterRef.resolve m name "ready_to_arm"
  let finished ← RegisterRef.resolve m name "finished"
  let arm ← RegisterRef.resolve m name "arm"
  let fromSlave ← RegisterRef.resolve m name "from_slave"
  let toSlave ← RegisterRef.resolve m name "to_slave"
  return { name, arbiter, readyToArm, finished, arm, fromSlave, toSlave,
           pollLimit := standardPollLimit }

/-- The same driver with another bound on its waits. -/
def withPollLimit (d : SpiDriver) (limit : Nat) : SpiDriver :=
  { d with pollLimit := limit }

variable {τ : Type} [Transport τ]

/-- Shift a frame out and give the frame shifted in. -/
def exchange (d : SpiDriver) (g : Grant) (frame : Word) : Action τ Word := do
  d.arbiter.check g supervisorIndex
  d.arm.set 0
  waitFor "ready_to_arm" d.pollLimit (d.readyToArm.reads 1)
  d.toSlave.set frame
  d.arm.set 1
  waitFor "finished" d.pollLimit (d.finished.reads 1)
  let answer ← d.fromSlave.get
  d.arm.set 0
  return answer

/-- Shift a frame out and give the frame shifted in. -/
def send (d : SpiDriver) (g : Grant) (frame : Word) : Action (Link τ) Word :=
  Link.locked (d.exchange g frame)

/-- Where the session is, as far as the registers show it. -/
def session (d : SpiDriver) : Action (Link τ) Spi.Session := Link.locked do
  let finished ← d.finished.reads 1
  let armed ← d.arm.reads 1
  return if finished then .finished else if armed then .armed else .idle

end SpiDriver

end InstrumentBus
