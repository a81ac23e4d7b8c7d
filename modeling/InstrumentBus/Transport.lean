import InstrumentBus.Diagnostic
import InstrumentBus.Word
import InstrumentBus.Word.Hex

/-!
# Transports

A transport moves words and bytes between a program and the bus. An access may fail, and it may
change the transport either way, so each access gives its outcome and the transport after it.
-/

namespace InstrumentBus

/-- Why an access fails. -/
inductive Fault where
  /-- Nothing answers at the address. -/
  | unmapped (addr : Addr)
  /-- A word access needs the address of a word. -/
  | misaligned (addr : Addr)
  /-- What lives at the address does not answer. -/
  | noAck (addr : Addr)
  /-- The word encodes no value of the wanted type. -/
  | undefinedCode
deriving DecidableEq, Repr

/-- The text shown for a fault. -/
def Fault.message : Fault → String
  | .unmapped addr => "No region decodes address " ++ Hex.literal addr.toNat
  | .misaligned addr => "Word access at unaligned address " ++ Hex.literal addr.toNat
  | .noAck addr =>
    "Bus transaction at " ++ Hex.literal addr.toNat ++ " was never acknowledged"
  | .undefinedCode => "InvalidValue"

/-- The name of a fault. -/
def Fault.title : Fault → String
  | .unmapped _ => "Unmapped"
  | .misaligned _ => "Misaligned"
  | .noAck _ => "NoAck"
  | .undefinedCode => "Packing"

instance : Diagnostic Fault :=
  ⟨Fault.title, Fault.message⟩

/-- A byte of the bus. -/
abbrev Byte := BitVec 8

/-- Anything that moves words and bytes to and from the bus. -/
class Transport (τ : Type) where
  /-- Read the word at an address. -/
  readWord : τ → Addr → Except Fault Word × τ
  /-- Write the word at an address. -/
  writeWord : τ → Addr → Word → Except Fault Unit × τ
  /-- Read the byte at an address. -/
  readByte : τ → Addr → Except Fault Byte × τ
  /-- Write the byte at an address and leave the other bytes of its word. -/
  writeByte : τ → Addr → Byte → Except Fault Unit × τ

namespace Transport

variable {τ : Type} [Transport τ]

/-- Read `count` words from `addr` on, up to the first that fails. -/
def readWords (t : τ) (addr : Addr) : Nat → Except Fault (List Word) × τ
  | 0 => (.ok [], t)
  | count + 1 =>
    match readWord t addr with
    | (.error e, t) => (.error e, t)
    | (.ok w, t) =>
      match readWords t (addr + 4) count with
      | (.error e, t) => (.error e, t)
      | (.ok ws, t) => (.ok (w :: ws), t)

/-- Write words from `addr` on, up to the first that fails. -/
def writeWords (t : τ) (addr : Addr) : List Word → Except Fault Unit × τ
  | [] => (.ok (), t)
  | w :: ws =>
    match writeWord t addr w with
    | (.error e, t) => (.error e, t)
    | (.ok (), t) => writeWords t (addr + 4) ws

/-- Either of two transports. -/
instance {α β : Type} [Transport α] [Transport β] : Transport (α ⊕ β) where
  readWord
    | .inl t, addr => (readWord t addr).map id .inl
    | .inr t, addr => (readWord t addr).map id .inr
  writeWord
    | .inl t, addr, w => (writeWord t addr w).map id .inl
    | .inr t, addr, w => (writeWord t addr w).map id .inr
  readByte
    | .inl t, addr => (readByte t addr).map id .inl
    | .inr t, addr => (readByte t addr).map id .inr
  writeByte
    | .inl t, addr, b => (writeByte t addr b).map id .inl
    | .inr t, addr, b => (writeByte t addr b).map id .inr

end Transport

end InstrumentBus
