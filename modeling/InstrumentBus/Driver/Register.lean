import InstrumentBus.Driver.Action
import InstrumentBus.Manifest
import InstrumentBus.Transport.Encoding

/-!
# Registers as drivers see them

A register reference knows the address of its register, its width, who may write it and on whose
behalf it is used. A write that the access mode forbids fails before any access is made.
-/

namespace InstrumentBus

/-- A register that was looked up in a manifest. -/
structure RegisterRef where
  /-- The names of region and register, for messages. -/
  name : String
  addr : Addr
  /-- The number of significant bits. -/
  width : Nat
  /-- Who may write the register. -/
  access : Access
  /-- The side that uses the register. -/
  side : Side
deriving DecidableEq, Repr

namespace RegisterRef

/-- The register of a region, used by the supervisor. -/
def resolve (m : Manifest) (region register : String) : Except DriverError RegisterRef :=
  match m.register? region register with
  | none => .error (.missingRegister region register)
  | some (addr, reg) =>
    .ok { name := s!"{region}.{register}", addr, width := reg.width, access := reg.access,
          side := .supervisor }

/-- The same register, used by `side`. -/
def onSide (r : RegisterRef) (side : Side) : RegisterRef :=
  { r with side }

/-- Whether a write would be accepted. -/
def checkWritable (r : RegisterRef) : Except DriverError Unit :=
  if r.access.writableBy r.side then .ok ()
  else
    match r.access with
    | .ownedBy owner => .error (.wrongSide r.name owner)
    | _ => .error (.readOnly r.name)

variable {τ : Type} [Transport τ]

/-- Read the register; bits above its width are dropped. -/
def get (r : RegisterRef) : Action τ Word := do
  let w ← Action.ofAccess fun t => Transport.readWord t r.addr
  return w &&& widthMask r.width

/-- Write the register, if its access mode allows it; bits above its width are dropped. -/
def set (r : RegisterRef) (w : Word) : Action τ Unit := do
  Action.ofExcept r.checkWritable
  Action.ofAccess fun t => Transport.writeWord t r.addr (w &&& widthMask r.width)

/-- Whether the register reads `w`. -/
def reads (r : RegisterRef) (w : Word) : Action τ Bool := do
  return (← r.get) == w

end RegisterRef

/-- The origin and size of a region. -/
def Manifest.bounds (m : Manifest) (region : String) : Except DriverError (Addr × Word) :=
  match m.region? region with
  | some r => .ok (r.origin, r.size)
  | none => .error (.missingRegion region)

/-! ## Typed registers -/

/-- A register that holds a value of type `α`. -/
structure TypedRegister (α : Type) where
  register : RegisterRef
deriving DecidableEq, Repr

namespace TypedRegister

variable {α τ : Type} [WordCode α] [Transport τ]

/-- The register of a region, used by `side`. -/
def resolve (α : Type) (m : Manifest) (region register : String) (side : Side) :
    Except DriverError (TypedRegister α) := do
  let r ← RegisterRef.resolve m region register
  return { register := r.onSide side }

/-- Read the value in the register. -/
def get (r : TypedRegister α) : Action (Link τ) α := Link.locked do
  let w ← r.register.get
  match WordCode.decode? w with
  | some v => return v
  | none => throw (.fault .undefinedCode)

/-- Write a value to the register. -/
def set (r : TypedRegister α) (v : α) : Action (Link τ) Unit :=
  Link.locked (r.register.set (WordCode.encode v))

end TypedRegister

end InstrumentBus
