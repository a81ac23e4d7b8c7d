import InstrumentBus.Json.Printer
import InstrumentBus.NameMap
import InstrumentBus.Side
import InstrumentBus.Word
import InstrumentBus.Digest.Md5

/-!
# Manifests

A manifest tells drivers and generated code where every region and register of an instrument lives.
It carries a digest of its text, so that two programs can check that they mean the same instrument.
-/

namespace InstrumentBus

/-- A register as a manifest describes it. -/
structure Manifest.Register where
  /-- The byte offset from the origin of the region. -/
  offset : Addr
  /-- The number of significant bits. -/
  width : Nat
  /-- Who may write the register. -/
  access : Access
deriving DecidableEq, Repr

/-- A region as a manifest describes it. -/
structure Manifest.Region where
  origin : Addr
  size : Word
  /-- The registers, for a region that is a register file. -/
  registers : Option (NameMap Manifest.Register)

/-- The regions of a manifest, by name. -/
abbrev Manifest.Regions := NameMap Manifest.Region

/-- The regions of an instrument and the digest of their text. -/
structure Manifest where
  regions : Manifest.Regions
  /-- The digest of the text that the manifest was made from. -/
  digest : List UInt8

namespace Manifest

/-! ## Text -/

/-- An access mode as JSON. -/
def accessJson : Access → Json String
  | .readOnly => .string "read_only"
  | .readWrite => .string "read_write"
  | .ownedBy side => .object [("owner_restricted", .string side.key)]

/-- A register as JSON. -/
def Register.toJson (r : Register) : Json String :=
  .object [
    ("offset", .natural r.offset.toNat),
    ("width", .natural r.width),
    ("access", accessJson r.access)]

/-- A region as JSON; a region without registers does not mention them. -/
def Region.toJson (r : Region) : Json String :=
  let registers :=
    match r.registers with
    | none => []
    | some m => [("registers", .object (m.entries.map fun e => (e.1, e.2.toJson)))]
  .object (("origin", .natural r.origin.toNat) :: ("size", .natural r.size.toNat) :: registers)

/-- The text of a set of regions. -/
def Regions.text (regions : Regions) : String :=
  Json.pretty (.object (regions.entries.map fun e => (e.1, e.2.toJson)))

/-- The bytes of a text. -/
def bytesOf (text : String) : List UInt8 :=
  text.toUTF8.toList

/-- The text of a manifest's regions. -/
def text (m : Manifest) : String :=
  m.regions.text

/-- The manifest of a set of regions, with the digest of their text. -/
def ofRegions (regions : Regions) : Manifest :=
  { regions, digest := Md5.digest (bytesOf regions.text) }

/-- The digest as hexadecimal text. -/
def digestText (m : Manifest) : String :=
  Md5.text m.digest

/-! ## Look-up -/

/-- The region with the given name. -/
def region? (m : Manifest) (name : String) : Option Region :=
  m.regions.find? name

/-- The address of a register of a region, unless it lies past the end of the address space. -/
def Region.addressOf? (r : Region) (reg : Register) : Option Addr :=
  if r.origin.toNat + reg.offset.toNat < 2 ^ 32 then some (r.origin + reg.offset) else none

/-- The address of a register and its description. -/
def register? (m : Manifest) (region register : String) : Option (Addr × Register) := do
  let r ← m.region? region
  let registers ← r.registers
  let reg ← registers.find? register
  let addr ← r.addressOf? reg
  return (addr, reg)

end Manifest

end InstrumentBus
