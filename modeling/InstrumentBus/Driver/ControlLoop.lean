import InstrumentBus.ControlLoop.Gain
import InstrumentBus.Driver.Register

/-!
# The driver of the control loop

A call puts a 64-bit word and an opcode in place, raises `start_cmd`, waits for `finish_cmd`, takes
the 64-bit answer, lowers `start_cmd` and waits for the release. The parameters that the two
processors share are registers of their own.
-/

namespace InstrumentBus

open ControlLoop (Command Gain Value)

/-- The command block of the control loop. -/
structure LoopDriver where
  opcode : RegisterRef
  inHigh : RegisterRef
  inLow : RegisterRef
  /-- Starts and releases a call. -/
  startBit : RegisterRef
  outHigh : RegisterRef
  outLow : RegisterRef
  /-- Reads 1 from the answer to the release. -/
  finishBit : RegisterRef
  /-- Reads 1 while the loop runs. -/
  inLoop : RegisterRef
  /-- The bound on each wait. -/
  pollLimit : Nat
deriving DecidableEq, Repr

namespace LoopDriver

/-- The command block in the region `name`. -/
def ofManifest (m : Manifest) (name : String) : Except DriverError LoopDriver := do
  let opcode ← RegisterRef.resolve m name "cmd"
  let inHigh ← RegisterRef.resolve m name "word_in_hi"
  let inLow ← RegisterRef.resolve m name "word_in_lo"
  let startBit ← RegisterRef.resolve m name "start_cmd"
  let outHigh ← RegisterRef.resolve m name "word_out_hi"
  let outLow ← RegisterRef.resolve m name "word_out_lo"
  let finishBit ← RegisterRef.resolve m name "finish_cmd"
  let inLoop ← RegisterRef.resolve m name "in_loop"
  return { opcode, inHigh, inLow, startBit, outHigh, outLow, finishBit, inLoop,
           pollLimit := standardPollLimit }

/-- The same driver with another bound on its waits. -/
def withPollLimit (d : LoopDriver) (limit : Nat) : LoopDriver :=
  { d with pollLimit := limit }

variable {τ : Type} [Transport τ]

/-- Call the block with an opcode and a value, and give its answer. -/
def call (d : LoopDriver) (opcode : Word) (v : Value) : Action (Link τ) Value := Link.locked do
  d.inHigh.set v.high
  d.inLow.set v.low
  d.opcode.set opcode
  d.startBit.set 1
  waitFor "finish_cmd" d.pollLimit (d.finishBit.reads 1)
  let high ← d.outHigh.get
  let low ← d.outLow.get
  d.startBit.set 0
  waitFor "finish_cmd release" d.pollLimit (d.finishBit.reads 0)
  return .ofHalves high low

/-- Set a parameter and give the value that it has then. -/
def write (d : LoopDriver) (c : Command) (v : Value) : Action (Link τ) Value :=
  d.call c.writeOpcode v

/-- The value of a parameter. -/
def read (d : LoopDriver) (c : Command) : Action (Link τ) Value :=
  d.call c.readOpcode 0

/-- Set both gains. -/
def setGains (d : LoopDriver) (proportional integral : Gain) : Action (Link τ) Unit := do
  let _ ← d.write .proportional proportional.bits
  let _ ← d.write .integral integral.bits

/-- Both gains, the proportional one first. -/
def gains (d : LoopDriver) : Action (Link τ) (Gain × Gain) := do
  let proportional ← d.read .proportional
  let integral ← d.read .integral
  return (⟨proportional⟩, ⟨integral⟩)

/-- Set the value that the loop holds. -/
def setSetpoint (d : LoopDriver) (v : Value) : Action (Link τ) Unit := do
  let _ ← d.write .setpoint v

/-- Start the loop, which also resets its count of steps. -/
def start (d : LoopDriver) : Action (Link τ) Unit := do
  let _ ← d.write .status 1

/-- Stop the loop. -/
def stop (d : LoopDriver) : Action (Link τ) Unit := do
  let _ ← d.write .status 0

/-- Whether the loop runs. -/
def isRunning (d : LoopDriver) : Action (Link τ) Bool :=
  Link.locked (d.inLoop.reads 1)

/-- The steps since the loop was started. -/
def cycles (d : LoopDriver) : Action (Link τ) Value :=
  d.read .cycles

end LoopDriver

/-! ## Shared parameters -/

/-- The parameters that the supervisor and the co-processor share. -/
structure LoopParameters where
  integral : TypedRegister Int32
  proportional : TypedRegister Int32
  /-- The time between two iterations. -/
  interval : TypedRegister (BitVec 32)
  /-- The value that the loop holds. -/
  setpoint : TypedRegister Int32
  /-- The position that the co-processor wants. -/
  positionSetpoint : TypedRegister Int32
  /-- The position that the co-processor measured. -/
  position : TypedRegister Int32

/-- The parameters in a region, used by `side`. -/
def LoopParameters.ofManifest (m : Manifest) (region : String) (side : Side) :
    Except DriverError LoopParameters := do
  let integral ← TypedRegister.resolve Int32 m region "cl_I" side
  let proportional ← TypedRegister.resolve Int32 m region "cl_P" side
  let interval ← TypedRegister.resolve (BitVec 32) m region "deltaT" side
  let setpoint ← TypedRegister.resolve Int32 m region "setpt" side
  let positionSetpoint ← TypedRegister.resolve Int32 m region "zset" side
  let position ← TypedRegister.resolve Int32 m region "zpos" side
  return { integral, proportional, interval, setpoint, positionSetpoint, position }

end InstrumentBus
