import InstrumentBus.Manifest
import InstrumentBus.RegisterFile.Layout

/-!
# Address maps

An address map divides the address space into named regions. A region's size is a power of two and
its origin a multiple of its size, and no two regions overlap, so every address belongs to at most
one region. Regions are collected in a draft, which checks each one as it arrives. The alignment makes
decoding cheap: an address is compared with an origin above the bits that the size leaves free, and
those bits are the offset.
-/

namespace InstrumentBus

/-- A window of the address space and whatever answers in it. -/
structure AddressMap.Region (α : Type) where
  name : String
  origin : Addr
  size : Word
  /-- The registers, for a region that is a register file. -/
  registers : Option Layout
  /-- What answers in the region. -/
  owner : α
deriving DecidableEq, Repr

/-- Why a region cannot be added to a map. -/
inductive AddressMap.Error where
  | duplicateRegion (name : String)
  /-- The size is not a power of two. -/
  | notPowerOfTwo (name : String) (size : Word)
  /-- The origin is not a multiple of the size. -/
  | misaligned (name : String) (origin : Addr)
  /-- The region has an address in common with another. -/
  | overlap (name other : String)
deriving DecidableEq, Repr

/-- The text shown for an error of a map. -/
def AddressMap.Error.message : AddressMap.Error → String
  | .duplicateRegion name => s!"A region named `{name}` already exists"
  | .notPowerOfTwo name size =>
    s!"Region `{name}` has size " ++ Hex.literal size.toNat ++ ", which is not a power of two"
  | .misaligned name origin =>
    s!"Region `{name}` starts at " ++ Hex.literal origin.toNat ++
      ", which is not a multiple of its size"
  | .overlap name other => s!"Region `{name}` overlaps region `{other}`"

/-- The name of an error of a map. -/
def AddressMap.Error.title : AddressMap.Error → String
  | .duplicateRegion _ => "DuplicateRegion"
  | .notPowerOfTwo _ _ => "NotPowerOfTwo"
  | .misaligned _ _ => "Misaligned"
  | .overlap _ _ => "Overlap"

instance : Diagnostic AddressMap.Error :=
  ⟨AddressMap.Error.title, AddressMap.Error.message⟩

namespace AddressMap

variable {α : Type}

namespace Region

/-- The end of a region, which may be the end of the address space. -/
def limit (r : Region α) : Nat :=
  r.origin.toNat + r.size.toNat

/-- An address belongs to a region when it lies between its origin and its end. -/
instance : Membership Addr (Region α) where
  mem r addr := r.origin ≤ addr ∧ addr.toNat < r.limit

instance (addr : Addr) (r : Region α) : Decidable (addr ∈ r) :=
  inferInstanceAs (Decidable (r.origin ≤ addr ∧ addr.toNat < r.limit))

/-- Whether two regions have an address in common. -/
def overlaps (r s : Region α) : Bool :=
  r.origin.toNat < s.limit && s.origin.toNat < r.limit

/-- The number of low address bits that tell the bytes of a region apart. -/
def freeBits (r : Region α) : Nat :=
  r.size.ctz.toNat

/-- Whether an address agrees with the origin above the free bits. -/
def contains (r : Region α) (addr : Addr) : Bool :=
  addr.toNat >>> r.freeBits == r.origin.toNat >>> r.freeBits

/-- The free bits of an address. -/
def offsetOf (r : Region α) (addr : Addr) : Addr :=
  addr &&& (r.size - 1)

/-- A region without registers. -/
def plain (name : String) (origin : Addr) (size : Word) (owner : α) : Region α :=
  { name, origin, size, registers := none, owner }

/-- A register file, sized to hold its layout. -/
def ofLayout (name : String) (origin : Addr) (layout : Layout) (owner : α) : Region α :=
  { name, origin, size := BitVec.ofNat 32 layout.size, registers := some layout, owner }

end Region

/-- The regions collected so far, in the order of their arrival. -/
structure Draft (α : Type) where
  regions : List (Region α)

namespace Draft

/-- The draft without regions. -/
def empty : Draft α :=
  { regions := [] }

/-- The draft with one more region, if its name is new and it is sized, aligned and placed as a
region must be. -/
def add (d : Draft α) (r : Region α) : Except Error (Draft α) :=
  if d.regions.any (·.name == r.name) then .error (.duplicateRegion r.name)
  else if ¬IsPowerOfTwo r.size.toNat then .error (.notPowerOfTwo r.name r.size)
  else if r.origin &&& (r.size - 1) ≠ 0 then .error (.misaligned r.name r.origin)
  else
    match d.regions.find? fun s => s.overlaps r with
    | some other => .error (.overlap r.name other.name)
    | none => .ok { regions := d.regions ++ [r] }

/-- The draft with several more regions, if each can be added in turn. -/
def addAll (d : Draft α) : List (Region α) → Except Error (Draft α)
  | [] => .ok d
  | r :: rest =>
    match d.add r with
    | .ok d => addAll d rest
    | .error e => .error e

/-- The draft of the regions of a list that can be added in turn, and for each of the list whether
it was added. -/
def collect (d : Draft α) : List (Region α) → Draft α × List (Except Error Unit)
  | [] => (d, [])
  | r :: rest =>
    match d.add r with
    | .ok d => (collect d rest).map id (.ok () :: ·)
    | .error e => (collect d rest).map id (.error e :: ·)

end Draft

end AddressMap

/-- A finished map: its regions in the order of their origins. -/
structure AddressMap (α : Type) where
  regions : List (AddressMap.Region α)

namespace AddressMap

variable {α : Type}

/-- The map of the regions in a draft. -/
def Draft.build (d : Draft α) : AddressMap α :=
  { regions := d.regions.mergeSort fun r s => r.origin ≤ s.origin }

/-- The region that an address belongs to. -/
def decode? (m : AddressMap α) (addr : Addr) : Option (Region α) :=
  m.regions.find? (·.contains addr)

/-- The region with the given name. -/
def region? (m : AddressMap α) (name : String) : Option (Region α) :=
  m.regions.find? (·.name == name)

end AddressMap

/-- The registers of a layout as a manifest describes them. -/
def Layout.manifestRegisters (l : Layout) : NameMap Manifest.Register :=
  NameMap.ofList (l.fields.toList.zipIdx.map fun (f, i) =>
    (f.name, { offset := Layout.offset i, width := f.width, access := f.access }))

/-- The manifest of a map. -/
def AddressMap.manifest {α : Type} (m : AddressMap α) : Manifest :=
  .ofRegions (NameMap.ofList (m.regions.map fun r =>
    (r.name,
      { origin := r.origin, size := r.size
        registers := r.registers.map Layout.manifestRegisters })))

end InstrumentBus
