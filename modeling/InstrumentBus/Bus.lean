import InstrumentBus.Word

/-!
# Bus transactions

A transaction is a single word access that completes in the step that issues it. A `Target` answers
transactions; a `Clocked` device moves on by itself, one step per tick.
-/

namespace InstrumentBus

/-- A single word access. The address is relative to the region that was decoded. -/
inductive Request where
  /-- Read the word at `addr`. -/
  | read (addr : Addr)
  /-- Write the enabled byte lanes of the word at `addr`. -/
  | write (addr : Addr) (data : Word) (lanes : Lanes)
deriving DecidableEq, Repr

namespace Request

/-- Write all lanes of the word at `addr`. -/
def writeWord (addr : Addr) (data : Word) : Request :=
  .write addr data Lanes.all

/-- The address of the access. -/
def addr : Request → Addr
  | .read a => a
  | .write a _ _ => a

/-- The same access at another address. -/
def relocate (a : Addr) : Request → Request
  | .read _ => .read a
  | .write _ data lanes => .write a data lanes

end Request

/-- The answer to a request. -/
structure Response where
  /-- The word read; zero for a write. -/
  data : Word
  ack : Bool
deriving DecidableEq, Repr

namespace Response

/-- An acknowledged answer. -/
def acked (data : Word) : Response :=
  { data, ack := true }

/-- What a master that is connected to nothing sees: zero, acknowledged at once. -/
def idle : Response :=
  acked 0

end Response

/-- Anything that answers bus transactions. -/
class Target (σ : Type) where
  /-- The answer to a request and the state after it. -/
  transact : σ → Request → Response × σ

/-- Anything that moves on by itself, one step at a time. -/
class Clocked (σ : Type) where
  tick : σ → σ

/-- The state after a number of steps. -/
def Clocked.ticks {σ : Type} [Clocked σ] : Nat → σ → σ
  | 0, s => s
  | n + 1, s => ticks n (tick s)

end InstrumentBus
