import InstrumentBus.Coprocessor
import InstrumentBus.Driver.Arbiter

/-!
# The driver of the co-processor

Loading a program holds the core in reset, takes the program RAM for the supervisor, writes the
bytes and reads them back. Enabling the core gives the RAM to it and releases the reset.
-/

namespace InstrumentBus

/-- What the core last showed on its debug registers. -/
structure CoreSnapshot where
  trap : Byte
  /-- The address of the last access on the data bus. -/
  busAddress : Word
  /-- The data of the last write on the data bus. -/
  busData : Word
  /-- The address of the last instruction. -/
  programCounter : Word
  opcode : Word
  /-- The general purpose registers, `x1` and up. -/
  registers : List Word
deriving DecidableEq, Repr

/-- The co-processor and its program RAM. -/
structure CoreDriver where
  name : String
  /-- The arbiter in front of the program RAM. -/
  ram : Arbiter
  /-- The first address of the program RAM. -/
  ramOrigin : Addr
  /-- The size of the program RAM in bytes. -/
  ramSize : Nat
  /-- The core's index on the program RAM's arbiter. -/
  coreMaster : Nat
  enableBit : RegisterRef
  trap : RegisterRef
  /-- The address of the last access on the data bus. -/
  busAddress : RegisterRef
  /-- The data of the last write on the data bus. -/
  busData : RegisterRef
  /-- The address of the last instruction. -/
  programCounter : RegisterRef
  opcode : RegisterRef
  /-- The general purpose registers, `x1` and up. -/
  registers : List RegisterRef
deriving DecidableEq, Repr

namespace CoreDriver

/-- The core in the region `name`, its general purpose registers in `<name>_regs` and its RAM in
`<name>_ram`. -/
def ofManifest (id : Nat) (m : Manifest) (name : String) (coreMaster : Nat) :
    Except DriverError CoreDriver := do
  let (ramOrigin, ramSize) ← m.bounds s!"{name}_ram"
  let registers ← (List.range Coprocessor.registerCount).mapM fun i =>
    RegisterRef.resolve m s!"{name}_regs" (Coprocessor.registerName (i + 1))
  let ram ← Arbiter.ofManifest id m s!"{name}_ram"
  let enableBit ← RegisterRef.resolve m name "enable"
  let trap ← RegisterRef.resolve m name "trap"
  let busAddress ← RegisterRef.resolve m name "d_adr"
  let busData ← RegisterRef.resolve m name "d_dat_w"
  let programCounter ← RegisterRef.resolve m name "dbg_insn_addr"
  let opcode ← RegisterRef.resolve m name "dbg_insn_opcode"
  return { name, ram, ramOrigin, ramSize := ramSize.toNat, coreMaster, enableBit, trap, busAddress,
           busData, programCounter, opcode, registers }

variable {τ : Type} [Transport τ]

/-- Write bytes from an address on. -/
def writeBytes (addr : Addr) : List Byte → Action τ Unit
  | [] => return ()
  | b :: bs => do
    Action.ofAccess fun t => Transport.writeByte t addr b
    writeBytes (addr + 1) bs

/-- Read bytes from an address on and compare them with what was written there. -/
def verifyBytes (addr : Addr) : List Byte → Action τ Unit
  | [] => return ()
  | b :: bs => do
    let read ← Action.ofAccess fun t => Transport.readByte t addr
    if read = b then verifyBytes (addr + 1) bs
    else throw (.verifyFailed addr b read)

/-- Whether the core is out of reset. -/
def isEnabled (d : CoreDriver) : Action (Link τ) Bool :=
  Link.locked (d.enableBit.reads 1)

/-- Write a program to the RAM and verify it; the core stays in reset. A running core is refused
unless `force` is set. -/
def load (d : CoreDriver) (program : List Byte) (force : Bool) : Action (Link τ) Unit := do
  if d.ramSize < program.length then throw (.tooLarge program.length d.ramSize)
  Link.locked do
    if !force then
      if ← d.enableBit.reads 1 then throw (.running d.name)
    d.enableBit.set 0
    let _ ← d.ram.connect supervisorIndex
    writeBytes d.ramOrigin program
    verifyBytes d.ramOrigin program

/-- Give the RAM to the core and release the reset. -/
def enable (d : CoreDriver) : Action (Link τ) Unit := Link.locked do
  let _ ← d.ram.connect d.coreMaster
  d.enableBit.set 1

/-- Hold the core in reset. -/
def disable (d : CoreDriver) : Action (Link τ) Unit :=
  Link.locked (d.enableBit.set 0)

/-- What the core shows on its debug registers. -/
def snapshot (d : CoreDriver) : Action (Link τ) CoreSnapshot := Link.locked do
  let registers ← d.registers.mapM fun r => r.get
  let trap ← d.trap.get
  let busAddress ← d.busAddress.get
  let busData ← d.busData.get
  let programCounter ← d.programCounter.get
  let opcode ← d.opcode.get
  return { trap := trap.setWidth 8, busAddress, busData, programCounter, opcode, registers }

end CoreDriver

end InstrumentBus
