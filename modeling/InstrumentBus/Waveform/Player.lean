import InstrumentBus.Ad5791.Frame
import InstrumentBus.Spi.Controller

/-!
# The waveform player

The player replays samples from a RAM into the DAC's SPI controller, and waits a set number of ticks
after each frame. It is itself a master on both, and what it reads from one that is connected to
another master is zero: without the controller it waits for it, without the RAM it plays zeros. The
rules of one step are these:

* while `force_stop` is set the player returns to ready, lowering the controller's `arm` if it was
  running;
* a ready player starts from the first sample when `run` is set, and a finished one becomes ready
  when `run` is cleared;
* a running player whose `run` is cleared lowers `arm` and becomes ready, and otherwise goes through
  the phases of a sample.
-/

namespace InstrumentBus.Waveform

/-- What the player is doing. -/
inductive State where
  | ready
  | running
  /-- Past the last sample, waiting for `run` to be cleared. -/
  | finished
deriving DecidableEq, Repr

/-- The name of a state. -/
def State.title : State → String
  | .ready => "Ready"
  | .running => "Running"
  | .finished => "Finished"

/-- The progress of one sample. -/
inductive Phase where
  /-- Copy the sample into the controller. -/
  | load
  /-- Arm the controller as soon as it is ready. -/
  | transfer
  /-- Wait for the end of the frame. -/
  | awaitFrame
  /-- Let ticks pass; `elapsed` are gone. -/
  | wait (elapsed : Nat)
deriving DecidableEq, Repr

/-- The registers of the player. -/
def Player.layout : Layout :=
  { fields := #[
      { name := "run", width := 1, access := .readWrite },
      { name := "force_stop", width := 1, access := .readWrite },
      { name := "do_loop", width := 1, access := .readWrite },
      { name := "wform_width", width := 16, access := .readWrite },
      { name := "timer_spacing", width := 32, access := .readWrite },
      { name := "finished_or_ready", width := 1, access := .readOnly },
      { name := "finished", width := 1, access := .readOnly },
      { name := "cursor", width := 16, access := .readOnly }] }

/-- The player: its registers, its state and the phase of the current sample. -/
structure Player where
  /-- The registers on the bus. -/
  registers : RegisterFile Player.layout
  /-- What the player is doing. -/
  state : State
  /-- The phase of the current sample. -/
  phase : Phase
deriving DecidableEq, Repr

namespace Player

/-! ## Places of the registers -/

/-- The place of `run`. -/
abbrev run : Nat := 0
/-- The place of `force_stop`. -/
abbrev forceStop : Nat := 1
/-- The place of `do_loop`. -/
abbrev doLoop : Nat := 2
/-- The place of `wform_width`. -/
abbrev width : Nat := 3
/-- The place of `timer_spacing`. -/
abbrev spacing : Nat := 4
/-- The place of `finished_or_ready`. -/
abbrev finishedOrReady : Nat := 5
/-- The place of `finished`. -/
abbrev finished : Nat := 6
/-- The place of `cursor`. -/
abbrev cursor : Nat := 7

/-! ## Requests to the RAM and the controller -/

/-- The request that reads the sample at `cursor`. -/
def readSample (cursor : Word) : Request :=
  .read (cursor * 4)

/-- The frame that carries a sample to the DAC. -/
def sampleFrame (sample : Word) : Word :=
  Ad5791.writeFrame .dac sample

/-- The request that puts a sample's frame into the controller. -/
def loadFrame (sample : Word) : Request :=
  .writeWord (Layout.offset Spi.Controller.toSlave) (sampleFrame sample)

/-- The request that asks whether the controller is ready. -/
def askReady : Request :=
  .read (Layout.offset Spi.Controller.readyToArm)

/-- The request that asks whether the frame is complete. -/
def askFinished : Request :=
  .read (Layout.offset Spi.Controller.finished)

/-- The request that raises `arm`. -/
def raiseArm : Request :=
  .writeWord (Layout.offset Spi.Controller.arm) 1

/-- The request that lowers `arm`. -/
def lowerArm : Request :=
  .writeWord (Layout.offset Spi.Controller.arm) 0

/-! ## Behaviour -/

/-- The player at reset. -/
def reset : Player :=
  { registers := (RegisterFile.zero _).drive finishedOrReady 1
    state := .ready
    phase := .load }

/-- The player with the register in place `i` driven by the hardware. -/
def drive (p : Player) (i : Nat) (v : Word) : Player :=
  { p with registers := p.registers.drive i v }

/-- The player at the start of a state, with its flags showing it. -/
def enter (p : Player) (state : State) : Player :=
  { registers :=
      (p.registers.drive finishedOrReady (if state = .running then 0 else 1)).drive finished
        (if state = .finished then 1 else 0)
    state
    phase := .load }

/-- The answer to a bus transaction. -/
def transact (p : Player) (req : Request) : Response × Player :=
  let (answer, registers) := p.registers.transactFrom .supervisor req
  (answer, { p with registers })

instance : Target Player where
  transact := transact

variable {ρ δ : Type} [Target ρ] [Target δ]

/-- The player past a sample: at the next one, at the first one again, or finished. -/
def advance (p : Player) : Player :=
  let next := p.registers.value cursor + 1
  if next < p.registers.value width then { p.drive cursor next with phase := .load }
  else if p.registers.value doLoop = 1 then { p.drive cursor 0 with phase := .load }
  else p.enter .finished

/-- One phase of the current sample, with the sample RAM and the controller. -/
def playPhase (p : Player) (ram : ρ) (dac : δ) : Player × ρ × δ :=
  match p.phase with
  | .load =>
    let (sample, ram) := Target.transact ram (readSample (p.registers.value cursor))
    let (_, dac) := Target.transact dac (loadFrame sample.data)
    ({ p with phase := .transfer }, ram, dac)
  | .transfer =>
    let (ready, dac) := Target.transact dac askReady
    if ready.data = 1 then
      let (_, dac) := Target.transact dac raiseArm
      ({ p with phase := .awaitFrame }, ram, dac)
    else (p, ram, dac)
  | .awaitFrame =>
    let (complete, dac) := Target.transact dac askFinished
    if complete.data = 1 then
      let (_, dac) := Target.transact dac lowerArm
      ({ p with phase := .wait 0 }, ram, dac)
    else (p, ram, dac)
  | .wait elapsed =>
    if elapsed < (p.registers.value spacing).toNat then
      ({ p with phase := .wait (elapsed + 1) }, ram, dac)
    else (p.advance, ram, dac)

/-- One step of the player, with the sample RAM and the controller as the player reaches them. -/
def tick (p : Player) (ram : ρ) (dac : δ) : Player × ρ × δ :=
  if p.registers.value forceStop = 1 then
    if p.state = .running then
      let (_, dac) := Target.transact dac lowerArm
      ((p.drive cursor 0).enter .ready, ram, dac)
    else (p.enter .ready, ram, dac)
  else
    match p.state with
    | .ready =>
      if p.registers.value run = 1 then ((p.drive cursor 0).enter .running, ram, dac)
      else (p, ram, dac)
    | .finished =>
      if p.registers.value run = 1 then (p, ram, dac) else (p.enter .ready, ram, dac)
    | .running =>
      if p.registers.value run = 1 then p.playPhase ram dac
      else
        let (_, dac) := Target.transact dac lowerArm
        (p.enter .ready, ram, dac)

end Player

end InstrumentBus.Waveform
