import InstrumentBus.Side
import InstrumentBus.Word

/-!
# Layouts of register files

A layout lists the registers of one region. Each register takes one word, in the order in which the
registers were added, so the register in place `i` lives at byte offset `4 * i`.
-/

namespace InstrumentBus

/-- One register of a layout. -/
structure Field where
  name : String
  /-- The number of significant bits, from 1 to 32. -/
  width : Nat
  /-- Who may write the register. -/
  access : Access
deriving DecidableEq, Repr

/-- The ordered registers of one region. -/
structure Layout where
  /-- The registers in the order of their offsets. -/
  fields : Array Field
deriving DecidableEq, Repr

/-- Why a register cannot be added to a layout. -/
inductive LayoutError where
  /-- The width is outside 1 to 32. -/
  | badWidth (name : String) (width : Nat)
  | duplicate (name : String)
  /-- The registers would no longer fit the capacity. -/
  | full (name : String) (capacity : Nat)
deriving DecidableEq, Repr

/-- The text shown for a layout error. -/
def LayoutError.message : LayoutError → String
  | .badWidth name width =>
    s!"Register `{name}` is {width} bits wide, registers hold 1 to 32 bits"
  | .duplicate name => s!"Register `{name}` already exists in this bank"
  | .full name capacity => s!"Register `{name}` doesn't fit in the bank's {capacity} bytes"

/-- The name of a layout error. -/
def LayoutError.title : LayoutError → String
  | .badWidth _ _ => "Unsupported"
  | .duplicate _ => "DuplicateRegister"
  | .full _ _ => "RegisterOverflow"

instance : Diagnostic LayoutError :=
  ⟨LayoutError.title, LayoutError.message⟩

namespace Layout

/-- The layout without registers. -/
def empty : Layout :=
  { fields := #[] }

instance : EmptyCollection Layout :=
  ⟨empty⟩

/-- The number of registers. -/
def count (l : Layout) : Nat :=
  l.fields.size

/-- The byte offset of the register in place `i`. -/
def offset (i : Nat) : Addr :=
  BitVec.ofNat 32 (4 * i)

/-- The least power of two that holds every register and at least one word, in bytes. -/
def size (l : Layout) : Nat :=
  max 4 (ceilPowerOfTwo (4 * l.count))

/-- The width of the register in place `i`; there are no bits past the last register. -/
def widthAt (l : Layout) (i : Nat) : Nat :=
  (l.fields[i]?.map Field.width).getD 0

/-- The place of the register called `name`. -/
def indexOf? (l : Layout) (name : String) : Option Nat :=
  l.fields.findIdx? (·.name == name)

/-- The place of the register at a byte offset: the offset is aligned and a register lives there. -/
def indexAt? (l : Layout) (offset : Addr) : Option Nat :=
  if offset.Aligned ∧ offset.toNat / 4 < l.count then some (offset.toNat / 4) else none

/-- The capacity of a region whose registers are bounded by the address space alone. -/
def unbounded : Nat :=
  2 ^ 32 - 1

/-- The layout with one more register at its end, if the width is allowed, the name is new and the
registers still fit `capacity` bytes and a region of at most `2 ^ 31` bytes. -/
def add (l : Layout) (capacity : Nat) (f : Field) : Except LayoutError Layout :=
  if f.width = 0 ∨ 32 < f.width then .error (.badWidth f.name f.width)
  else if (l.indexOf? f.name).isSome then .error (.duplicate f.name)
  else if capacity < 4 * (l.count + 1) ∨ 2 ^ 31 < 4 * (l.count + 1) then
    .error (.full f.name capacity)
  else .ok { fields := l.fields.push f }

/-- The layout of the registers of a list that can be added in turn, and for each of the list its
offset or why it was left out. -/
def collect (capacity : Nat) (fields : List Field) : Layout × List (Except LayoutError Addr) :=
  go ∅ fields
where
  go (l : Layout) : List Field → Layout × List (Except LayoutError Addr)
    | [] => (l, [])
    | f :: rest =>
      match l.add capacity f with
      | .ok l' => (go l' rest).map id (.ok (offset l.count) :: ·)
      | .error e => (go l rest).map id (.error e :: ·)

end Layout

end InstrumentBus
