import InstrumentBus.ControlLoop.Command
import InstrumentBus.RegisterFile

/-!
# The control loop's command block

The block executes one command per handshake: when `start_cmd` is raised it takes the opcode and a
64-bit word, answers with the parameter's value, and raises `finish_cmd` until `start_cmd` is
lowered. While the loop runs the block counts its steps.
-/

namespace InstrumentBus.ControlLoop

/-- A parameter's value, a signed number of 64 bits. -/
abbrev Value := BitVec 64

/-- The upper half of a value. -/
def Value.high (v : Value) : Word :=
  (v >>> 32).setWidth 32

/-- The lower half of a value. -/
def Value.low (v : Value) : Word :=
  v.setWidth 32

/-- The value with the given halves. -/
def Value.ofHalves (high low : Word) : Value :=
  high ++ low

/-- The registers of the block. -/
def Engine.layout : Layout :=
  { fields := #[
      { name := "cmd", width := 8, access := .readWrite },
      { name := "word_in_hi", width := 32, access := .readWrite },
      { name := "word_in_lo", width := 32, access := .readWrite },
      { name := "start_cmd", width := 1, access := .readWrite },
      { name := "word_out_hi", width := 32, access := .readOnly },
      { name := "word_out_lo", width := 32, access := .readOnly },
      { name := "finish_cmd", width := 1, access := .readOnly },
      { name := "in_loop", width := 1, access := .readOnly }] }

/-- The command block: its registers and the parameters in the order of their codes. -/
structure Engine where
  /-- The registers on the bus. -/
  registers : RegisterFile Engine.layout
  parameters : Vector Value 8
deriving DecidableEq, Repr

namespace Engine

/-! ## Places of the registers -/

/-- The place of `cmd`. -/
abbrev opcode : Nat := 0
/-- The place of `word_in_hi`. -/
abbrev inHigh : Nat := 1
/-- The place of `word_in_lo`. -/
abbrev inLow : Nat := 2
/-- The place of `start_cmd`. -/
abbrev start : Nat := 3
/-- The place of `word_out_hi`. -/
abbrev outHigh : Nat := 4
/-- The place of `word_out_lo`. -/
abbrev outLow : Nat := 5
/-- The place of `finish_cmd`. -/
abbrev finish : Nat := 6
/-- The place of `in_loop`. -/
abbrev inLoop : Nat := 7

/-! ## Behaviour -/

/-- The block at reset: every parameter is zero. -/
def reset : Engine :=
  { registers := RegisterFile.zero _, parameters := Vector.replicate 8 0 }

/-- The value of a parameter. -/
def parameter (e : Engine) (c : Command) : Value :=
  e.parameters[c.slot]?.getD 0

/-- The block with a parameter set. -/
def setParameter (e : Engine) (c : Command) (v : Value) : Engine :=
  { e with parameters := e.parameters.setIfInBounds c.slot v }

/-- Whether the loop runs. -/
def running (e : Engine) : Bool :=
  e.parameter .status != 0

/-- The block with its answer on the bus. -/
def respond (e : Engine) (v : Value) : Engine :=
  { e with
    registers := ((e.registers.drive outHigh v.high).drive outLow v.low).drive finish 1 }

/-- The block after a write of a parameter; a write of the status also resets the count. -/
def assign (e : Engine) (c : Command) (v : Value) : Engine :=
  let written := e.setParameter c v
  if c = .status then written.setParameter .cycles 0 else written

/-- The block after the command on the bus. An unknown command answers zero. -/
def execute (e : Engine) : Engine :=
  let op := e.registers.value opcode
  match Command.ofOpcode? op with
  | none => e.respond 0
  | some c =>
    let word := Value.ofHalves (e.registers.value inHigh) (e.registers.value inLow)
    let after := if op &&& Command.writeBit ≠ 0 then e.assign c word else e
    after.respond (after.parameter c)

/-- The block after its part of the handshake. -/
def handshake (e : Engine) : Engine :=
  let starting := e.registers.value start == 1
  let finished := e.registers.value finish == 1
  if starting && !finished then e.execute
  else if !starting && finished then { e with registers := e.registers.drive finish 0 }
  else e

/-- The block after it showed whether the loop runs and, if so, counted the step. -/
def count (e : Engine) : Engine :=
  let shown := { e with registers := e.registers.drive inLoop (if e.running then 1 else 0) }
  if e.running then shown.setParameter .cycles (e.parameter .cycles + 1) else shown

/-- One step of the block. -/
def tick (e : Engine) : Engine :=
  e.handshake.count

instance : Clocked Engine where
  tick := tick

/-- The answer to a bus transaction. -/
def transact (e : Engine) (req : Request) : Response × Engine :=
  let (answer, registers) := e.registers.transactFrom .supervisor req
  (answer, { e with registers })

instance : Target Engine where
  transact := transact

/-- The block after a word was written to the register in place `i` over the bus. -/
def put (e : Engine) (i : Nat) (w : Word) : Engine :=
  (e.transact (.writeWord (Layout.offset i) w)).2

/-- One command as a master runs it over the bus: the block when the answer stands, and the block
after the handshake is released. -/
def call (e : Engine) (op : Word) (v : Value) : Engine × Engine :=
  let answered := ((((e.put inHigh v.high).put inLow v.low).put opcode op).put start 1).tick
  (answered, (answered.put start 0).tick)

end Engine

end InstrumentBus.ControlLoop
