import InstrumentBus.Transport

/-!
# Values in words

Types whose values travel in one word. Every value has a word; a word may encode no value.
-/

namespace InstrumentBus

/-- A type whose values travel in one word. -/
class WordCode (α : Type) where
  /-- The word of a value. -/
  encode : α → Word
  /-- The value that a word encodes. -/
  decode? : Word → Option α

/-- Unsigned numbers of at most 32 bits take the low bits of the word. -/
instance {n : Nat} : WordCode (BitVec n) where
  encode v := v.setWidth 32
  decode? w := some (w.setWidth n)

/-- Signed bytes are extended by their sign. -/
instance : WordCode Int8 where
  encode v := v.toBitVec.signExtend 32
  decode? w := some (.ofBitVec (w.setWidth 8))

/-- Signed half words are extended by their sign. -/
instance : WordCode Int16 where
  encode v := v.toBitVec.signExtend 32
  decode? w := some (.ofBitVec (w.setWidth 16))

/-- Signed words take the whole word. -/
instance : WordCode Int32 where
  encode v := v.toBitVec
  decode? w := some (.ofBitVec w)

/-- Truth values take the lowest bit. -/
instance : WordCode Bool where
  encode b := if b then 1 else 0
  decode? w := some w[0]

/-- A number in single precision, by its bits. -/
structure Single where
  bits : Word
deriving DecidableEq, Repr

instance : WordCode Single where
  encode v := v.bits
  decode? w := some ⟨w⟩

namespace Transport

variable {τ : Type} [Transport τ]

/-- Read the value in the word at an address. -/
def read (α : Type) [WordCode α] (t : τ) (addr : Addr) : Except Fault α × τ :=
  match readWord t addr with
  | (.error e, t) => (.error e, t)
  | (.ok w, t) =>
    match WordCode.decode? w with
    | some v => (.ok v, t)
    | none => (.error .undefinedCode, t)

/-- Write a value to the word at an address. -/
def write {α : Type} [WordCode α] (t : τ) (addr : Addr) (v : α) : Except Fault Unit × τ :=
  writeWord t addr (WordCode.encode v)

end Transport

end InstrumentBus
