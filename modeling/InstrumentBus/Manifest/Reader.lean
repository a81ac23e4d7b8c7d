import InstrumentBus.Gzip
import InstrumentBus.Json.Reader
import InstrumentBus.Manifest

/-!
# Reading manifests

A manifest is JSON text, compressed or not. The text must have the shape of a manifest, and its
regions must obey the rules of an address map: sizes are powers of two, origins are multiples of the
size, regions do not overlap, and registers are words inside their region.
-/

namespace InstrumentBus.Manifest

/-- Why bytes are no manifest. -/
inductive ReadError where
  /-- There is no file, or its compressed data is damaged. -/
  | unreadable
  /-- The text is not JSON of the right shape. -/
  | malformed
  /-- A size is not a power of two. -/
  | badSize (name : String)
  /-- An origin is not a multiple of the size. -/
  | misalignedRegion (name : String) (origin : Addr)
  | overlap (name other : String)
  /-- An offset is not a multiple of the word size. -/
  | misaligned (region register : String)
  /-- A width is outside 1 to 32. -/
  | badWidth (region register : String) (width : Nat)
  /-- An offset is past the end of the region. -/
  | outOfBounds (region register : String) (offset : Addr)
deriving DecidableEq, Repr

/-- The text shown for a read error; what went wrong with a file is not part of it. -/
def ReadError.message? : ReadError → Option String
  | .unreadable => none
  | .malformed => some "Malformed manifest"
  | .badSize name => some s!"Region `{name}` has a size that isn't a power of two"
  | .misalignedRegion name origin =>
    some (s!"Region `{name}` starts at " ++ Hex.literal origin.toNat ++
      ", which is not a multiple of its size")
  | .overlap name other => some s!"Region `{name}` overlaps region `{other}`"
  | .misaligned region register => some s!"Register `{region}.{register}` is not word aligned"
  | .badWidth region register width =>
    some s!"Register `{region}.{register}` has width {width}, which doesn't fit a bus word"
  | .outOfBounds region register offset =>
    some (s!"Register `{region}.{register}` at offset " ++ Hex.literal offset.toNat ++
      " lies outside its region")

/-- The name of a read error. -/
def ReadError.title : ReadError → String
  | .unreadable => "Io"
  | .malformed => "Json"
  | .badSize _ => "BadSize"
  | .misalignedRegion _ _ => "MisalignedRegion"
  | .overlap _ _ => "Overlap"
  | .misaligned _ _ => "Misaligned"
  | .badWidth _ _ _ => "BadWidth"
  | .outOfBounds _ _ _ => "OutOfBounds"

/-! ## Shape -/

open Json (Read)

/-- A natural number of 32 bits. -/
def wordOf? (v : Read) : Option Word :=
  (v.naturalBelow? (2 ^ 32)).map (BitVec.ofNat 32)

/-- A side: its name, or an object that maps its name to null. -/
def sideOf? : Read → Option Side
  | .string (some name) | .object [(some name, .null)] =>
    if name = Side.supervisor.key then some .supervisor
    else if name = Side.coprocessor.key then some .coprocessor
    else none
  | _ => none

/-- An access mode: its name, or an object that maps its name to null or to the owning side. -/
def accessOf? : Read → Option Access
  | .string (some name) | .object [(some name, .null)] =>
    if name = "read_only" then some .readOnly
    else if name = "read_write" then some .readWrite
    else none
  | .object [(some name, v)] =>
    if name = "owner_restricted" then (sideOf? v).map .ownedBy else none
  | _ => none

/-- A register from the values of its fields. -/
def registerOfFields? (offset width access : Read) : Option Register := do
  let offset ← wordOf? offset
  let width ← width.naturalBelow? 256
  let access ← accessOf? access
  return { offset, width, access }

/-- A register: an object with its fields, or the list of their values. -/
def registerOf? : Read → Option Register
  | .object members =>
    if Json.readable members then do
      let offset ← Json.required? "offset" members
      let width ← Json.required? "width" members
      let access ← Json.required? "access" members
      registerOfFields? offset width access
    else none
  | .array [offset, width, access] => registerOfFields? offset width access
  | _ => none

/-- The members of an object, each read by `f`, or none if one cannot be read. -/
def membersOf? {α : Type} (f : Read → Option α) :
    List (Option String × Read) → Option (List (String × α))
  | [] => some []
  | (key, v) :: rest => do
    let name ← key
    let a ← f v
    let others ← membersOf? f rest
    return (name, a) :: others

/-- A map from names: an object in which the last member of a name counts. -/
def mapOf? {α : Type} (f : Read → Option α) : Read → Option (NameMap α)
  | .object members => (membersOf? f members).map NameMap.ofList
  | _ => none

/-- The registers of a region, where null stands for none. -/
def registersOf? : Read → Option (Option (NameMap Register))
  | .null => some none
  | v => (mapOf? registerOf? v).map some

/-- A region from the values of its fields. -/
def regionOfFields? (origin size : Read) (registers : Option Read) : Option Region := do
  let origin ← wordOf? origin
  let size ← wordOf? size
  let registers ← registersOf? (registers.getD .null)
  return { origin, size, registers }

/-- A region: an object with its fields, or the list of their values. -/
def regionOf? : Read → Option Region
  | .object members =>
    if Json.readable members then do
      let origin ← Json.required? "origin" members
      let size ← Json.required? "size" members
      let registers ← Json.optional? "registers" members
      regionOfFields? origin size registers
    else none
  | .array [origin, size] => regionOfFields? origin size none
  | .array [origin, size, registers] => regionOfFields? origin size (some registers)
  | _ => none

/-- The regions that a text describes. -/
def regionsOf? (text : List UInt8) : Option Regions :=
  (Json.read? text).bind (mapOf? regionOf?)

/-! ## Rules -/

/-- The end of a region, which may be the end of the address space. -/
def Region.limit (r : Region) : Nat :=
  r.origin.toNat + r.size.toNat

/-- Whether two regions have an address in common. -/
def Region.overlaps (r s : Region) : Bool :=
  r.origin.toNat < s.limit && s.origin.toNat < r.limit

/-- Whether a register obeys the rules inside its region. -/
def checkRegister (name : String) (r : Region) (register : String) (reg : Register) :
    Except ReadError Unit :=
  if reg.offset.toNat % 4 ≠ 0 then .error (.misaligned name register)
  else if reg.width = 0 ∨ 32 < reg.width then .error (.badWidth name register reg.width)
  else if r.size.toNat ≤ reg.offset.toNat then .error (.outOfBounds name register reg.offset)
  else .ok ()

/-- Whether all registers of a region obey the rules; the first that does not is told. -/
def checkRegisters (name : String) (r : Region) : List (String × Register) → Except ReadError Unit
  | [] => .ok ()
  | (register, reg) :: rest =>
    match checkRegister name r register reg with
    | .ok () => checkRegisters name r rest
    | .error e => .error e

/-- Whether a region obeys the rules beside those that follow it in the order of names. -/
def checkRegion (name : String) (r : Region) (later : List (String × Region)) :
    Except ReadError Unit :=
  if ¬IsPowerOfTwo r.size.toNat then .error (.badSize name)
  else if r.origin &&& (r.size - 1) ≠ 0 then .error (.misalignedRegion name r.origin)
  else
    match later.find? fun e => e.2.overlaps r with
    | some (other, _) => .error (.overlap other name)
    | none => checkRegisters name r ((r.registers.map NameMap.entries).getD [])

/-- Whether all regions obey the rules; the first that does not is told. -/
def checkRegions : List (String × Region) → Except ReadError Unit
  | [] => .ok ()
  | (name, r) :: later =>
    match checkRegion name r later with
    | .ok () => checkRegions later
    | .error e => .error e

/-! ## Files -/

/-- The text in the bytes of a file: the data of a compressed file, or the bytes themselves. -/
def textOf? (bytes : List UInt8) : Option (List UInt8) :=
  if Gzip.magic.isPrefixOf bytes then Gzip.decode? bytes else some bytes

/-- The manifest in the bytes of a file. Its digest is that of the text. -/
def ofBytes (bytes : List UInt8) : Except ReadError Manifest :=
  match textOf? bytes with
  | none => .error .unreadable
  | some text =>
    match regionsOf? text with
    | none => .error .malformed
    | some regions =>
      match checkRegions regions.entries with
      | .error e => .error e
      | .ok () => .ok { regions, digest := Md5.digest text }

/-- The manifest in a file, if there is such a file. -/
def ofFile (contents : Option (List UInt8)) : Except ReadError Manifest :=
  match contents with
  | none => .error .unreadable
  | some bytes => ofBytes bytes

end InstrumentBus.Manifest
