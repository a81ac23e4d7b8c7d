import InstrumentBus.Board
import InstrumentBus.Transport

/-!
# Accesses to the board

Every access that some region decodes first moves the whole board one step on, and then reaches the
block of that region. The two processors see the board through views, which are transports.
-/

namespace InstrumentBus.Board

/-! ## One step -/

/-- The board one step later. The SPI controllers move first, then the player, then the co-processor,
then the control loop. -/
def tick (b : Board) : Board :=
  let (wf0, samples, dac) :=
    b.wf0.tick (BusSwitch.View.mk ramPlayerMaster b.wf0Ram)
      (BusSwitch.View.mk dacPlayerMaster b.dac0.tick)
  let (pico0, program) := b.pico0.tick (BusSwitch.View.mk coprocessorMaster b.pico0Ram)
  { b with
    dac0 := dac.switch
    adc0 := b.adc0.tick
    wf0
    wf0Ram := samples.switch
    pico0
    pico0Ram := program.switch
    cl := b.cl.tick }

instance : Clocked Board where
  tick := tick

/-! ## Transactions -/

/-- The answer of a block to the supervisor. -/
def supervisorTransact (b : Board) (block : Block) (req : Request) : Response × Board :=
  match block with
  | .dac0 => (b.dac0.transact supervisorMaster req).map id fun s => { b with dac0 := s }
  | .adc0 => (b.adc0.transact supervisorMaster req).map id fun s => { b with adc0 := s }
  | .dac0Select => (b.dac0.transactControl req).map id fun s => { b with dac0 := s }
  | .adc0Select => (b.adc0.transactControl req).map id fun s => { b with adc0 := s }
  | .wf0RamSelect => (b.wf0Ram.transactControl req).map id fun s => { b with wf0Ram := s }
  | .pico0RamSelect => (b.pico0Ram.transactControl req).map id fun s => { b with pico0Ram := s }
  | .wf0 => (b.wf0.transact req).map id fun p => { b with wf0 := p }
  | .wf0Ram => (b.wf0Ram.transact supervisorMaster req).map id fun s => { b with wf0Ram := s }
  | .pico0 => (b.pico0.transactControl req).map id fun c => { b with pico0 := c }
  | .pico0Regs => (b.pico0.transactDebug req).map id fun c => { b with pico0 := c }
  | .pico0Ram => (b.pico0Ram.transact supervisorMaster req).map id fun s => { b with pico0Ram := s }
  | .clParams => (b.clParams.transactFrom .supervisor req).map id fun r => { b with clParams := r }
  | .cl => (b.cl.transact req).map id fun e => { b with cl := e }

/-- The answer of a block to the co-processor; blocks that are not on its bus give none. -/
def coprocessorTransact? (b : Board) (block : Block) (req : Request) : Option (Response × Board) :=
  match block with
  | .dac0 => some ((b.dac0.transact coprocessorMaster req).map id fun s => { b with dac0 := s })
  | .adc0 => some ((b.adc0.transact coprocessorMaster req).map id fun s => { b with adc0 := s })
  | .pico0Ram =>
    some ((b.pico0Ram.transact coprocessorMaster req).map id fun s => { b with pico0Ram := s })
  | .clParams =>
    some ((b.clParams.transactFrom .coprocessor req).map id fun r => { b with clParams := r })
  | _ => none

/-- The answer of a block to a processor. -/
def transact? (b : Board) (side : Side) (block : Block) (req : Request) :
    Option (Response × Board) :=
  match side with
  | .supervisor => some (b.supervisorTransact block req)
  | .coprocessor => b.coprocessorTransact? block req

/-- The outcome of an access from a processor. An address that no region decodes leaves the board as
it is; any other moves it one step on before the transaction. -/
def access (b : Board) (side : Side) (req : Request) : Except Fault Word × Board :=
  match (b.map side).decode? req.addr with
  | none => (.error (.unmapped req.addr), b)
  | some region =>
    let ticked := b.tick
    match ticked.transact? side region.owner (req.relocate (region.offsetOf req.addr)) with
    | none => (.error (.unmapped req.addr), ticked)
    | some (answer, after) =>
      if answer.ack then (.ok answer.data, after) else (.error (.noAck req.addr), after)

/-! ## Views -/

/-- The word at an address, as a processor reads it. -/
def readWord (b : Board) (side : Side) (addr : Addr) : Except Fault Word × Board :=
  if addr.Aligned then b.access side (.read addr) else (.error (.misaligned addr), b)

/-- The outcome of a processor's write of a word. -/
def writeWord (b : Board) (side : Side) (addr : Addr) (w : Word) : Except Fault Unit × Board :=
  if addr.Aligned then
    (b.access side (.writeWord addr w)).map (Except.map fun _ => ()) id
  else (.error (.misaligned addr), b)

/-- The byte at an address, as a processor reads it. -/
def readByte (b : Board) (side : Side) (addr : Addr) : Except Fault Byte × Board :=
  (b.access side (.read addr.wordBase)).map (Except.map fun w => Word.byte w addr.byteIndex) id

/-- The outcome of a processor's write of a byte. -/
def writeByte (b : Board) (side : Side) (addr : Addr) (v : Byte) : Except Fault Unit × Board :=
  (b.access side (.write addr.wordBase (Word.ofByteAt v addr.byteIndex) addr.lane)).map
    (Except.map fun _ => ()) id

/-- The board as one of the processors sees it. -/
structure View where
  side : Side
  board : Board

instance : Transport View where
  readWord v addr := (v.board.readWord v.side addr).map id fun b => { v with board := b }
  writeWord v addr w := (v.board.writeWord v.side addr w).map id fun b => { v with board := b }
  readByte v addr := (v.board.readByte v.side addr).map id fun b => { v with board := b }
  writeByte v addr x := (v.board.writeByte v.side addr x).map id fun b => { v with board := b }

/-! ## From outside -/

/-- The board after a number was presented to the ADC. -/
def presentAdc (b : Board) (raw : Int) : Board :=
  let controller := b.adc0.device
  { b with
    adc0 := { b.adc0 with device := { controller with device := controller.device.present raw } } }

/-- The board after the co-processor changed by itself. -/
def withCore (b : Board) (f : Coprocessor → Coprocessor) : Board :=
  { b with pico0 := f b.pico0 }

end InstrumentBus.Board
