import InstrumentBus.Diagnostic
import InstrumentBus.Power

/-!
# Bus words

The bus carries words of 32 bits at byte addresses of 32 bits. This module holds both types, the
masks that cut a word to a register's width or to the byte lanes of an access, and the sizes that a
register or a region may take.
-/

namespace InstrumentBus

/-- A data word of the bus. -/
abbrev Word := BitVec 32

/-- A byte address, or the offset of a byte inside a region. -/
abbrev Addr := BitVec 32

/-- Byte lane enables: lane `n` covers bits `8n` to `8n + 7` of a word. -/
abbrev Lanes := BitVec 4

/-! ## Masks -/

/-- The word whose low `width` bits are set; a width of 32 or more covers the whole word. -/
def widthMask (width : Nat) : Word :=
  BitVec.ofNat 32 (2 ^ min width 32 - 1)

/-- The word with eight bits set for every enabled lane. -/
def Lanes.mask (lanes : Lanes) : Word :=
  (if lanes[0] then 0xFF#32 else 0#32) |||
  (if lanes[1] then 0xFF00#32 else 0#32) |||
  (if lanes[2] then 0xFF0000#32 else 0#32) |||
  (if lanes[3] then 0xFF000000#32 else 0#32)

/-- All four lanes enabled. -/
def Lanes.all : Lanes := 0b1111#4

/-- The word that takes its bits from `new` where `mask` is set and from `old` elsewhere. -/
def Word.merge (old new mask : Word) : Word :=
  (old &&& ~~~mask) ||| (new &&& mask)

/-- The low `width` bits of a word, read as a two's complement number. -/
def Word.signed (width : Nat) (w : Word) : Int :=
  (w.setWidth (min width 32)).toInt

/-! ## Bytes of a word -/

/-- The place of an address inside its word: 0 is the least significant byte. -/
def Addr.byteIndex (addr : Addr) : Nat :=
  addr.toNat % 4

/-- Whether an address is the first of a word. -/
def Addr.Aligned (addr : Addr) : Prop :=
  addr.toNat % 4 = 0

instance (addr : Addr) : Decidable addr.Aligned :=
  inferInstanceAs (Decidable (addr.toNat % 4 = 0))

/-- The address of the word that holds the byte at `addr`. -/
def Addr.wordBase (addr : Addr) : Addr :=
  addr &&& ~~~3#32

/-- The only lane that covers the byte at `addr`. -/
def Addr.lane (addr : Addr) : Lanes :=
  1#4 <<< addr.byteIndex

/-- The byte of `w` in place `i`. -/
def Word.byte (w : Word) (i : Nat) : BitVec 8 :=
  (w >>> (8 * i)).setWidth 8

/-- The word whose byte in place `i` is `b` and whose other bytes are zero. -/
def Word.ofByteAt (b : BitVec 8) (i : Nat) : Word :=
  b.setWidth 32 <<< (8 * i)

/-! ## Sizes -/

/-- Why a size has no place on a bus of 32-bit words. -/
inductive SizeError where
  /-- Zero lies below every power of two. -/
  | zero
  /-- The size takes more bits than a word has. -/
  | unsupported (bits : Nat)
deriving DecidableEq, Repr

/-- The text shown for a size error. -/
def SizeError.message : SizeError → String
  | .zero => "Cannot round zero up to a power of two"
  | .unsupported bits => s!"A width of {bits} bits does not fit in a single bus word"

/-- The name of a size error. -/
def SizeError.title : SizeError → String
  | .zero => "Zero"
  | .unsupported _ => "Unsupported"

instance : Diagnostic SizeError :=
  ⟨SizeError.title, SizeError.message⟩

/-- The number of binary digits of `n`; zero has none. -/
def bitLength (n : Nat) : Nat :=
  if n = 0 then 0 else n.log2 + 1

/-- The least power of two that is at least `n`. -/
def ceilPowerOfTwo (n : Nat) : Nat :=
  2 ^ bitLength (n - 1)

/-- Whether `n` is a power of two. -/
def IsPowerOfTwo (n : Nat) : Prop :=
  2 ^ n.log2 = n

instance (n : Nat) : Decidable (IsPowerOfTwo n) :=
  inferInstanceAs (Decidable (2 ^ n.log2 = n))

/-- The least power of two that is at least `n`, if `n` is not zero and the result fits a word. -/
def roundUpToPowerOfTwo (n : Nat) : Except SizeError Nat :=
  if n = 0 then .error .zero
  else if ceilPowerOfTwo n < 2 ^ 32 then .ok (ceilPowerOfTwo n)
  else .error (.unsupported (bitLength n + 1))

/-- The narrowest of 8, 16 and 32 bits that holds a value of `width` bits. -/
def roundUpToMachineWidth (width : Nat) : Except SizeError Nat :=
  if width ≤ 8 then .ok 8
  else if width ≤ 16 then .ok 16
  else if width ≤ 32 then .ok 32
  else .error (.unsupported width)

end InstrumentBus
