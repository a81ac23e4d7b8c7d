import InstrumentBus.RegisterFile

/-!
# SPI controllers

An SPI controller shifts one frame per session. A session opens when `arm` is raised while the
controller is ready, shifts its frame a fixed number of ticks later, and stays finished until `arm`
is lowered. The registers of the controller tell where the session stands:

* `ready_to_arm` is 1 while no session is open;
* `finished` is 1 from the exchange of the frame until the session is released;
* `from_slave` holds the answer to the last frame, `to_slave` the frame to be shifted next.
-/

namespace InstrumentBus

/-- A device on the far end of the SPI wires. -/
class SerialDevice (δ : Type) where
  /-- What the device drives while one frame is shifted into it, and its state afterwards. -/
  exchange : δ → Word → Word × δ

/-- How far the controller is with the frame of a session. -/
inductive Spi.Transfer where
  | idle
  /-- The frame is shifted after `left` more ticks. -/
  | busy (left : Nat)
  /-- The frame is complete and the session is not released. -/
  | done
deriving DecidableEq, Repr

/-- Where a session is, as its user sees it. -/
inductive Spi.Session where
  | idle
  /-- A session is open and its frame is not complete. -/
  | armed
  /-- The frame of the session is complete. -/
  | finished
deriving DecidableEq, Repr

/-- The name of a place in a session. -/
def Spi.Session.title : Spi.Session → String
  | .idle => "Idle"
  | .armed => "Armed"
  | .finished => "Finished"

/-- The registers of a controller with frames of `frameWidth` bits. -/
def Spi.Controller.layout (frameWidth : Nat) : Layout :=
  { fields := #[
      { name := "ready_to_arm", width := 1, access := .readOnly },
      { name := "finished", width := 1, access := .readOnly },
      { name := "arm", width := 1, access := .readWrite },
      { name := "from_slave", width := frameWidth, access := .readOnly },
      { name := "to_slave", width := frameWidth, access := .readWrite }] }

/-- An SPI controller and the device on its wires. -/
structure Spi.Controller (δ : Type) where
  /-- The number of bits in a frame. -/
  frameWidth : Nat
  /-- The ticks from the opening of a session to the last tick before its frame is shifted. -/
  cycles : Nat
  /-- The registers on the bus. -/
  registers : RegisterFile (Spi.Controller.layout frameWidth)
  /-- The progress of the open session. -/
  transfer : Spi.Transfer
  /-- The device on the wires. -/
  device : δ

namespace Spi.Controller

/-! ## Places of the registers -/

/-- The place of `ready_to_arm`. -/
abbrev readyToArm : Nat := 0
/-- The place of `finished`. -/
abbrev finished : Nat := 1
/-- The place of `arm`. -/
abbrev arm : Nat := 2
/-- The place of `from_slave`. -/
abbrev fromSlave : Nat := 3
/-- The place of `to_slave`. -/
abbrev toSlave : Nat := 4

/-! ## Behaviour -/

variable {δ : Type}

/-- The controller at reset, in front of `device`. -/
def reset (device : δ) (frameWidth cycles : Nat) : Controller δ :=
  { frameWidth, cycles, device
    registers := (RegisterFile.zero _).drive readyToArm 1
    transfer := .idle }

/-- The controller at reset, if a frame fits a register. -/
def build (device : δ) (frameWidth cycles : Nat) : Except LayoutError (Controller δ) :=
  if frameWidth = 0 ∨ 32 < frameWidth then .error (.badWidth "from_slave" frameWidth)
  else .ok (reset device frameWidth cycles)

/-- Whether `arm` is raised. -/
def armed (c : Controller δ) : Bool :=
  c.registers.value arm == 1

/-- Where the session is. -/
def session (c : Controller δ) : Session :=
  match c.transfer with
  | .done => .finished
  | _ => if c.armed then .armed else .idle

/-- The answer to a bus transaction. -/
def transact (c : Controller δ) (req : Request) : Response × Controller δ :=
  let (answer, registers) := c.registers.transactFrom .supervisor req
  (answer, { c with registers })

instance : Target (Controller δ) where
  transact := transact

/-- The controller after it shifted the frame in `to_slave` through the device. -/
def shift [SerialDevice δ] (c : Controller δ) : Controller δ :=
  let mask := widthMask c.frameWidth
  let (answer, device) := SerialDevice.exchange c.device (c.registers.value toSlave &&& mask)
  { c with
    device
    registers := (c.registers.drive fromSlave (answer &&& mask)).drive finished 1
    transfer := .done }

/-- One step of the session. -/
def tick [SerialDevice δ] (c : Controller δ) : Controller δ :=
  match c.transfer with
  | .idle =>
    if c.armed then
      { c with registers := c.registers.drive readyToArm 0, transfer := .busy c.cycles }
    else c
  | .busy 0 => c.shift
  | .busy (left + 1) => { c with transfer := .busy left }
  | .done =>
    if c.armed then c
    else
      { c with
        registers := (c.registers.drive finished 0).drive readyToArm 1
        transfer := .idle }

instance [SerialDevice δ] : Clocked (Controller δ) where
  tick := tick

/-! ## A whole session -/

/-- The number of ticks until the frame is complete, at most `limit`, and the controller then. -/
def awaitFrame [SerialDevice δ] (c : Controller δ) : Nat → Nat × Controller δ
  | 0 => (0, c)
  | limit + 1 =>
    if c.registers.value finished = 0 then (c.tick.awaitFrame limit).map (· + 1) id else (0, c)

/-- One session as a master runs it over the bus: load the frame, arm, wait, release, fetch the
answer. The answer comes with the number of ticks that the frame took. -/
def runSession [SerialDevice δ] (c : Controller δ) (frame : Word) (limit : Nat) :
    (Word × Nat) × Controller δ :=
  let put (c : Controller δ) (i : Nat) (w : Word) := (c.transact (.writeWord (Layout.offset i) w)).2
  let (ticks, c) := (put (put c toSlave frame) arm 1).awaitFrame limit
  let c := (put c arm 0).tick
  let (answer, c) := c.transact (.read (Layout.offset fromSlave))
  ((answer.data, ticks), c)

end Spi.Controller

end InstrumentBus
