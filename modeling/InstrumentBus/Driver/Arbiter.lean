import InstrumentBus.Driver.Register

/-!
# Ownership of peripherals

The arbiter in front of a peripheral selects the master that is connected to it. Acquiring a
peripheral writes the selection and reads it back; the grant that results is the proof of ownership
that drivers ask for. A grant names the arbiter that issued it, so it proves nothing to another one,
even to one in front of the same peripheral.
-/

namespace InstrumentBus

/-- The index of the supervisor on every arbiter. -/
def supervisorIndex : Nat := 0

/-- The arbiter in front of a peripheral. -/
structure Arbiter where
  /-- What tells this arbiter from all others. -/
  id : Nat
  name : String
  /-- The register that holds the selection. -/
  selection : RegisterRef
deriving DecidableEq, Repr

/-- The proof that a master was connected to a peripheral. -/
structure Grant where
  arbiter : Arbiter
  /-- The master that was connected. -/
  master : Nat
deriving DecidableEq, Repr

namespace Arbiter

/-- The arbiter in front of the region `name`. -/
def ofManifest (id : Nat) (m : Manifest) (name : String) : Except DriverError Arbiter := do
  let selection ← RegisterRef.resolve m s!"{name}_pi" "master_select"
  return { id, name, selection }

variable {τ : Type} [Transport τ]

/-- The connected master. -/
def owner (a : Arbiter) : Action τ Nat := do
  return (← a.selection.get).toNat

/-- Connect a master and confirm that it is connected. -/
def connect (a : Arbiter) (master : Nat) : Action τ Grant := do
  if 2 ^ 32 ≤ master then throw (.outOfRange s!"master {master}")
  a.selection.set (BitVec.ofNat 32 master)
  let owner ← a.owner
  if owner = master then return { arbiter := a, master }
  else throw (.notOwner a.name owner master)

/-- Check that a grant was issued by this arbiter to `requester` and that `requester` is still
connected. Only the selection is read. -/
def check (a : Arbiter) (g : Grant) (requester : Nat) : Action τ Unit := do
  let owner ← a.owner
  if g.arbiter.id = a.id ∧ g.master = requester ∧ owner = requester then return ()
  else throw (.notOwner a.name owner requester)

/-- The connected master. -/
def active (a : Arbiter) : Action (Link τ) Nat :=
  Link.locked a.owner

/-- Connect a master; the grant is the proof. -/
def acquire (a : Arbiter) (master : Nat) : Action (Link τ) Grant :=
  Link.locked (a.connect master)

end Arbiter

namespace Grant

variable {τ : Type} [Transport τ]

/-- Whether the master of the grant is still connected. -/
def isCurrent (g : Grant) : Action (Link τ) Bool := do
  return (← g.arbiter.active) == g.master

/-- Connect another master in the stead of this grant's. -/
def handOff (g : Grant) (master : Nat) : Action (Link τ) Grant :=
  g.arbiter.acquire master

end Grant

end InstrumentBus
