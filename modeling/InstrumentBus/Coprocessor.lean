import InstrumentBus.RegisterFile

/-!
# The co-processor

The supervisor sees the co-processor through a control region and a region of its general purpose
registers. Coming out of reset the core fetches the first word of its RAM; going back into reset it
clears its trap code and its registers. What the core does in between is put into its debug
registers from outside.
-/

namespace InstrumentBus

/-- The number of general purpose registers that the debug region shows, `x1` and up. -/
def Coprocessor.registerCount : Nat := 31

/-- The address at which the core starts to fetch, in its own view of the bus. -/
def Coprocessor.resetVector : Word := 0x10000#32

/-- The control region. -/
def Coprocessor.controlLayout : Layout :=
  { fields := #[
      { name := "enable", width := 1, access := .readWrite },
      { name := "trap", width := 8, access := .readOnly },
      { name := "d_adr", width := 32, access := .readOnly },
      { name := "d_dat_w", width := 32, access := .readOnly },
      { name := "dbg_insn_addr", width := 32, access := .readOnly },
      { name := "dbg_insn_opcode", width := 32, access := .readOnly }] }

/-- The name of a general purpose register. -/
def Coprocessor.registerName (n : Nat) : String :=
  s!"x{n}"

/-- The region of the general purpose registers. -/
def Coprocessor.debugLayout : Layout :=
  { fields := Array.ofFn (fun i : Fin Coprocessor.registerCount =>
      { name := Coprocessor.registerName (i + 1), width := 32, access := .readOnly }) }

/-- The co-processor as the supervisor sees it. -/
structure Coprocessor where
  control : RegisterFile Coprocessor.controlLayout
  debug : RegisterFile Coprocessor.debugLayout
  /-- Whether the core was enabled in the last step. -/
  wasEnabled : Bool
deriving DecidableEq, Repr

namespace Coprocessor

/-! ## Places of the control registers -/

/-- The place of `enable`. -/
abbrev enable : Nat := 0
/-- The place of `trap`. -/
abbrev trap : Nat := 1
/-- The place of `d_adr`. -/
abbrev busAddress : Nat := 2
/-- The place of `d_dat_w`. -/
abbrev busData : Nat := 3
/-- The place of `dbg_insn_addr`. -/
abbrev programCounter : Nat := 4
/-- The place of `dbg_insn_opcode`. -/
abbrev opcode : Nat := 5

/-! ## Behaviour -/

/-- The core in reset. -/
def reset : Coprocessor :=
  { control := RegisterFile.zero _, debug := RegisterFile.zero _, wasEnabled := false }

/-- Whether the core is out of reset. -/
def enabled (c : Coprocessor) : Bool :=
  c.control.value enable == 1

/-- The answer to a transaction on the control region. -/
def transactControl (c : Coprocessor) (req : Request) : Response × Coprocessor :=
  let (answer, control) := c.control.transactFrom .supervisor req
  (answer, { c with control })

/-- The answer to a transaction on the general purpose registers. -/
def transactDebug (c : Coprocessor) (req : Request) : Response × Coprocessor :=
  let (answer, debug) := c.debug.transactFrom .supervisor req
  (answer, { c with debug })

/-- The core after a trap with the given code. -/
def latchTrap (c : Coprocessor) (code : Word) : Coprocessor :=
  { c with control := c.control.drive trap code }

/-- The core after it wrote `data` to `addr` on its bus. -/
def latchBusWrite (c : Coprocessor) (addr data : Word) : Coprocessor :=
  { c with control := (c.control.drive busAddress addr).drive busData data }

/-- The core with register `n` set. Register 0 is always zero, and there is none past the last. -/
def setRegister (c : Coprocessor) (n : Nat) (v : Word) : Coprocessor :=
  if n = 0 then c else { c with debug := c.debug.drive (n - 1) v }

/-- One step of the core, with its RAM as the core reaches it. -/
def tick {ρ : Type} [Target ρ] (c : Coprocessor) (ram : ρ) : Coprocessor × ρ :=
  let now := c.enabled
  if now && !c.wasEnabled then
    let (first, ram) := Target.transact ram (.read 0)
    let control := (c.control.drive programCounter resetVector).drive opcode first.data
    ({ c with control, wasEnabled := true }, ram)
  else if !now && c.wasEnabled then
    ({ control := c.control.drive trap 0, debug := RegisterFile.zero _, wasEnabled := false }, ram)
  else (c, ram)

end Coprocessor

end InstrumentBus
