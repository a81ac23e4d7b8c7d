import InstrumentBus.Manifest
import InstrumentBus.Transport
import Std.Data.HashMap

/-!
# Plain memory as a transport

A memory of bytes that backs some ranges of addresses. It knows no registers and no access modes. A
word access reaches four bytes, least significant first, and touches none of them unless all are
backed.
-/

namespace InstrumentBus

/-- A sparse memory of bytes. -/
structure Memory where
  /-- The backed ranges, first address and length of each. -/
  ranges : List (Nat × Nat)
  /-- The bytes that were written; all others are zero. -/
  written : Std.HashMap Nat Byte

namespace Memory

/-- Where the bytes of a range lie: from `origin` on, and again from zero on if they go past the end of the
address space. -/
def wrapped (origin : Addr) (size : Word) : List (Nat × Nat) :=
  let room := 2 ^ 32 - origin.toNat
  [(origin.toNat, min size.toNat room), (0, size.toNat - room)]

/-- The memory of zeros that backs the given ranges. -/
def ofRanges (ranges : List (Addr × Word)) : Memory :=
  { ranges := ranges.flatMap fun (origin, size) => wrapped origin size, written := ∅ }

/-- The memory of zeros that backs every region of a manifest. -/
def ofManifest (m : Manifest) : Memory :=
  ofRanges (m.regions.entries.map fun e => (e.2.origin, e.2.size))

/-- Whether an address is backed. -/
def backs (m : Memory) (addr : Nat) : Bool :=
  m.ranges.any fun (origin, size) => origin ≤ addr && addr < origin + size

/-- The byte at an address. -/
def byte? (m : Memory) (addr : Nat) : Option Byte :=
  if m.backs addr then some (m.written.getD addr 0) else none

/-- The byte at an address, or the fault of an address without one. -/
def byte (m : Memory) (addr : Nat) : Except Fault Byte :=
  match m.byte? addr with
  | some b => .ok b
  | none => .error (.unmapped (BitVec.ofNat 32 addr))

/-- The memory after a byte was written. -/
def store (m : Memory) (addr : Nat) (b : Byte) : Memory :=
  { m with written := m.written.insert addr b }

/-- The first address past the word at `addr`. It wraps around where the word is the last of the address
space. -/
def wordLimit (addr : Addr) : Addr :=
  addr + 4

/-- The addresses that an access to the word at `addr` goes through: those from `addr` on that are below the
limit. -/
def wordAddresses (addr : Addr) : List Nat :=
  List.range' addr.toNat ((wordLimit addr).toNat - addr.toNat)

/-- The word whose bytes are given, least significant first. -/
def ofBytes (bytes : List Byte) : Word :=
  bytes.foldr (fun b w => (w <<< 8) ||| b.setWidth 32) 0

/-- The memory after the bytes of a word were written, each in its place. -/
def storeWord (m : Memory) (addr : Addr) (w : Word) : Memory :=
  (wordAddresses addr).zipIdx.foldl (fun m (a, i) => m.store a (w.byte i)) m

/-- The word at an address. -/
def readWord (m : Memory) (addr : Addr) : Except Fault Word :=
  if addr.Aligned then ((wordAddresses addr).mapM m.byte).map ofBytes
  else .error (.misaligned addr)

/-- The memory after a word was written. -/
def writeWord (m : Memory) (addr : Addr) (w : Word) : Except Fault Memory :=
  if addr.Aligned then ((wordAddresses addr).mapM m.byte).map fun _ => m.storeWord addr w
  else .error (.misaligned addr)

/-- The memory after a byte was written to an address that is backed. -/
def writeByte (m : Memory) (addr : Addr) (b : Byte) : Except Fault Memory :=
  (m.byte addr.toNat).map fun _ => m.store addr.toNat b

/-- The outcome of a write, and the memory after it: a write that fails changes nothing. -/
def commit (m : Memory) : Except Fault Memory → Except Fault Unit × Memory
  | .ok m' => (.ok (), m')
  | .error e => (.error e, m)

instance : Transport Memory where
  readWord m addr := (m.readWord addr, m)
  writeWord m addr w := m.commit (m.writeWord addr w)
  readByte m addr := (m.byte addr.toNat, m)
  writeByte m addr b := m.commit (m.writeByte addr b)

end Memory

end InstrumentBus
