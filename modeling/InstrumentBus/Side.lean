/-!
# Sides of the bus and who may write a register

Two processors share the instrument: the supervisor, which runs the drivers, and a real-time
co-processor. Every register names the side that may write it.
-/

namespace InstrumentBus

/-- One of the two processors on the bus. -/
inductive Side where
  /-- The processor that runs the drivers. -/
  | supervisor
  | coprocessor
deriving DecidableEq, Repr

/-- The other processor. -/
def Side.opposite : Side → Side
  | .supervisor => .coprocessor
  | .coprocessor => .supervisor

/-- The name of a side as messages show it. -/
def Side.title : Side → String
  | .supervisor => "Supervisor"
  | .coprocessor => "Coprocessor"

/-- The name of a side in a manifest. -/
def Side.key : Side → String
  | .supervisor => "supervisor"
  | .coprocessor => "coprocessor"

/-- Who may write a register over the bus. -/
inductive Access where
  /-- Nobody: hardware drives the register. -/
  | readOnly
  | readWrite
  /-- The named side alone; the other may only read. -/
  | ownedBy (side : Side)
deriving DecidableEq, Repr

/-- Whether a write from `side` takes effect. -/
def Access.writableBy (access : Access) (side : Side) : Bool :=
  match access with
  | .readOnly => false
  | .readWrite => true
  | .ownedBy owner => owner == side

/-- The access mode of a register with at most one writer. -/
def Access.ofWriter : Option Side → Access
  | some side => .ownedBy side
  | none => .readOnly

end InstrumentBus
