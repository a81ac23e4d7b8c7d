import InstrumentBus.RegisterFile

/-!
# Bus switches

A bus switch connects one of several masters to a device. A master that is not connected still gets
an answer in the same step, an acknowledged zero, so nobody ever waits for a device that it does not
own. The selection is a register of its own control region; whoever writes that register moves the
connection from the next transaction on.
-/

namespace InstrumentBus

/-- Why a bus switch cannot be assembled or moved. -/
inductive SwitchError where
  /-- No master has this index. -/
  | noSuchMaster (index count : Nat)
  /-- There is nobody to connect. -/
  | noMasters
  | duplicateMaster (name : String)
deriving DecidableEq, Repr

/-- The text shown for a switch error. -/
def SwitchError.message : SwitchError → String
  | .noSuchMaster index count =>
    s!"Master {index} doesn't exist, this interface has {count}"
  | .noMasters => "An interface needs at least one master"
  | .duplicateMaster name => s!"A master named `{name}` already exists"

/-- The name of a switch error. -/
def SwitchError.title : SwitchError → String
  | .noSuchMaster _ _ => "NoSuchMaster"
  | .noMasters => "NoMasters"
  | .duplicateMaster _ => "DuplicateMaster"

instance : Diagnostic SwitchError :=
  ⟨SwitchError.title, SwitchError.message⟩

/-- The control region of a switch with `count` masters: one register, just wide enough for the
largest index. -/
def BusSwitch.controlLayout (count : Nat) : Layout :=
  { fields := #[{ name := "master_select", width := max 1 (bitLength (count - 1)),
                  access := .readWrite }] }

/-- A device behind several masters, one of which is connected. -/
structure BusSwitch (σ : Type) where
  /-- The names of the masters; the first is connected at reset. -/
  masters : Array String
  /-- The control region, which holds the selection. -/
  control : RegisterFile (BusSwitch.controlLayout masters.size)
  /-- The device that the connected master reaches. -/
  device : σ

namespace BusSwitch

variable {σ : Type}

/-- One more master behind those already named. -/
def addMaster (masters : Array String) (name : String) : Except SwitchError (Array String) :=
  if masters.contains name then .error (.duplicateMaster name) else .ok (masters.push name)

/-- The masters of a list that can be named in turn, and for each of the list its index or why it
was left out. -/
def collectMasters (names : List String) : Array String × List (Except SwitchError Nat) :=
  go #[] names
where
  go (masters : Array String) : List String → Array String × List (Except SwitchError Nat)
    | [] => (masters, [])
    | name :: rest =>
      match addMaster masters name with
      | .ok more => (go more rest).map id (.ok masters.size :: ·)
      | .error e => (go masters rest).map id (.error e :: ·)

/-- The switch in front of `device` at reset, with the first master connected. -/
def reset (masters : Array String) (device : σ) : BusSwitch σ :=
  { masters, control := RegisterFile.zero _, device }

/-- The switch in front of `device` at reset, if there is a master. -/
def build (masters : Array String) (device : σ) : Except SwitchError (BusSwitch σ) :=
  if masters.isEmpty then .error .noMasters else .ok (reset masters device)

/-- The number of masters. -/
def count (s : BusSwitch σ) : Nat :=
  s.masters.size

/-- The index of the connected master. -/
def active (s : BusSwitch σ) : Nat :=
  (s.control.value 0).toNat

/-- The switch after a whole-word write of `master` to the selection register. -/
def connect (s : BusSwitch σ) (master : Word) : BusSwitch σ :=
  { s with control := (s.control.transactFrom .supervisor (.writeWord 0 master)).2 }

/-- The switch with `master` connected, if there is such a master. -/
def select (s : BusSwitch σ) (master : Nat) : Except SwitchError (BusSwitch σ) :=
  if master < s.count then .ok (s.connect (BitVec.ofNat 32 master))
  else .error (.noSuchMaster master s.count)

/-- The answer to a transaction that reaches the control region's registers as it is. -/
def transactRegisters (s : BusSwitch σ) (req : Request) : Response × BusSwitch σ :=
  let (answer, control) := s.control.transactFrom .supervisor req
  (answer, { s with control })

/-- The answer to a transaction on the control region. A write to the selection register that names
no master connects the first one. -/
def transactControl (s : BusSwitch σ) (req : Request) : Response × BusSwitch σ :=
  match req with
  | .read _ => s.transactRegisters req
  | .write addr data lanes =>
    if addr = 0 then
      let requested := data &&& lanes.mask
      (.acked 0, s.connect (if requested.toNat < s.count then requested else 0))
    else s.transactRegisters req

/-- The answer to a transaction of `master`: the device's if the master is connected. -/
def transact [Target σ] (s : BusSwitch σ) (master : Nat) (req : Request) :
    Response × BusSwitch σ :=
  if master = s.active then
    let (answer, device) := Target.transact s.device req
    (answer, { s with device })
  else (.idle, s)

/-- One step of the device, whoever is connected. -/
def tick [Clocked σ] (s : BusSwitch σ) : BusSwitch σ :=
  { s with device := Clocked.tick s.device }

/-- A switch as one of its masters sees it. -/
structure View (σ : Type) where
  /-- The index of the master. -/
  master : Nat
  /-- The switch in front of the device. -/
  switch : BusSwitch σ

instance [Target σ] : Target (View σ) where
  transact v req :=
    let (answer, switch) := v.switch.transact v.master req
    (answer, { v with switch })

end BusSwitch

end InstrumentBus
