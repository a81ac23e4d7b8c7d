import InstrumentBus.Bus
import InstrumentBus.RegisterFile.Layout
import InstrumentBus.Word.Hex

/-!
# Register files

A register file holds a value for every register of a layout, which is a parameter of its type. The
hardware behind it reads values and drives them; either side of the bus reads and writes them at
byte offsets, under the access mode of each register.
-/

namespace InstrumentBus

/-- The values of the registers of a layout. -/
structure RegisterFile (layout : Layout) where
  /-- The values in the order of the offsets. -/
  values : Vector Word layout.count
deriving DecidableEq, Repr

/-- Why a write to a register file takes no effect. -/
inductive WriteError where
  /-- No register lives at the offset. -/
  | unmapped (offset : Addr)
  /-- Nobody may write the register. -/
  | readOnly (name : String)
  /-- The other side owns the register. -/
  | wrongSide (name : String) (side : Side)
deriving DecidableEq, Repr

/-- The text shown for a write error. -/
def WriteError.message : WriteError → String
  | .unmapped offset => "No register at offset " ++ Hex.literal offset.toNat
  | .readOnly name => s!"Register `{name}` is read only"
  | .wrongSide name side =>
    s!"Register `{name}` can't be written from the {side.title} side"

/-- The name of a write error. -/
def WriteError.title : WriteError → String
  | .unmapped _ => "Unmapped"
  | .readOnly _ => "ReadOnlyViolation"
  | .wrongSide _ _ => "WrongSideViolation"

instance : Diagnostic WriteError :=
  ⟨WriteError.title, WriteError.message⟩

/-- What a read of an offset without a register answers on each side. -/
def Side.unmappedWord : Side → Word
  | .supervisor => 0x00EDACAF#32
  | .coprocessor => 0x00FACADE#32

namespace RegisterFile

variable {layout : Layout}

/-- The register file whose registers are all zero. -/
def zero (layout : Layout) : RegisterFile layout :=
  { values := Vector.replicate layout.count 0 }

/-! ## The hardware side -/

/-- The value of the register in place `i`. -/
def value (r : RegisterFile layout) (i : Nat) : Word :=
  r.values[i]?.getD 0

/-- The register file with the register in place `i` set, whatever its access mode. -/
def drive (r : RegisterFile layout) (i : Nat) (v : Word) : RegisterFile layout :=
  { r with values := r.values.setIfInBounds i (v &&& widthMask (layout.widthAt i)) }

/-! ## The bus side -/

/-- The value of the register at `offset`. -/
def read (r : RegisterFile layout) (offset : Addr) : Except WriteError Word :=
  match layout.indexAt? offset with
  | some i => .ok (r.value i)
  | none => .error (.unmapped offset)

/-- The place of the register at `offset`, if `requester` may write it. -/
def writableIndex (layout : Layout) (offset : Addr) (requester : Side) : Except WriteError Nat :=
  match layout.indexAt? offset with
  | none => .error (.unmapped offset)
  | some i =>
    match layout.fields[i]? with
    | none => .error (.unmapped offset)
    | some f =>
      if f.access.writableBy requester then .ok i
      else if f.access = .readOnly then .error (.readOnly f.name)
      else .error (.wrongSide f.name requester)

/-- The register file after `requester` wrote the bits of `v` under `mask` to the register at
`offset`. -/
def writeMasked (r : RegisterFile layout) (offset : Addr) (v mask : Word) (requester : Side) :
    Except WriteError (RegisterFile layout) := do
  let i ← writableIndex layout offset requester
  let bits := mask &&& widthMask (layout.widthAt i)
  return { r with values := r.values.setIfInBounds i (Word.merge (r.value i) v bits) }

/-- The register file after `requester` wrote the register at `offset`. -/
def write (r : RegisterFile layout) (offset : Addr) (v : Word) (requester : Side) :
    Except WriteError (RegisterFile layout) :=
  r.writeMasked offset v (BitVec.allOnes 32) requester

/-- The answer to a transaction that arrives from `side`. A write that is refused is acknowledged
and dropped; a read without a register answers the side's own word. -/
def transactFrom (r : RegisterFile layout) (side : Side) : Request → Response × RegisterFile layout
  | .read addr =>
    match r.read addr with
    | .ok v => (.acked v, r)
    | .error _ => (.acked side.unmappedWord, r)
  | .write addr data lanes =>
    match r.writeMasked addr data lanes.mask side with
    | .ok r' => (.acked 0, r')
    | .error _ => (.acked 0, r)

instance : Target (RegisterFile layout) where
  transact r req := r.transactFrom .supervisor req

end RegisterFile

end InstrumentBus
