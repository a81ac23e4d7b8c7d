import InstrumentBus.RegisterFile.Layout

/-!
# Layouts in the making

A builder puts a layout together one register at a time. Beside the registers it keeps how many bytes they
take, rounded up to a power of two, and how many they may take.
-/

namespace InstrumentBus.Layout

/-- A layout in the making. -/
structure Builder where
  layout : Layout
  /-- The bytes up to the end of the last register, rounded up to a power of two; zero if there is none. -/
  bytes : Nat
  /-- The bytes that the registers may take, unless the address space alone bounds them. -/
  capacity : Option Addr
deriving DecidableEq, Repr

namespace Builder

/-- The builder without registers. -/
def new (capacity : Option Addr) : Builder :=
  { layout := ∅, bytes := 0, capacity }

/-- The bytes that the registers may take. -/
def limit (b : Builder) : Nat :=
  (b.capacity.map BitVec.toNat).getD unbounded

/-- The size of the layout so far, which is at least one word. -/
def size (b : Builder) : Nat :=
  max 4 b.bytes

/-- The end of the next register, in bytes. -/
def nextEnd (b : Builder) : Nat :=
  (offset b.layout.count).toNat + 4

/-- The bytes of the layout with one more register, rounded up to a power of two, if it can be added. -/
def bytesWith (b : Builder) (f : Field) : Except LayoutError Nat :=
  if f.width = 0 ∨ (roundUpToMachineWidth f.width).toOption.isNone then
    .error (.badWidth f.name f.width)
  else if (b.layout.indexOf? f.name).isSome then .error (.duplicate f.name)
  else if 2 ^ 32 ≤ b.nextEnd ∨ b.limit < b.nextEnd then .error (.full f.name b.limit)
  else (roundUpToPowerOfTwo b.nextEnd).mapError fun _ => .full f.name b.limit

/-- The offset of a register that is added at the end, or why it cannot be added, and the builder after
that. -/
def add (b : Builder) (f : Field) : Except LayoutError Addr × Builder :=
  match b.bytesWith f with
  | .error e => (.error e, b)
  | .ok bytes =>
    (.ok (offset b.layout.count), { b with layout := { fields := b.layout.fields.push f }, bytes })

/-- What the registers of a list are answered when they are added in turn, whatever becomes of them, and the
builder after that. -/
def addAll (b : Builder) : List Field → List (Except LayoutError Addr) × Builder
  | [] => ([], b)
  | f :: rest => ((b.add f).2.addAll rest).map ((b.add f).1 :: ·) id

end Builder

end InstrumentBus.Layout
