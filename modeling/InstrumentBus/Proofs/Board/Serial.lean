import InstrumentBus.Proofs.Board.Confinement
import InstrumentBus.Driver.Spi
import InstrumentBus.Proofs.Board.Registers

/-!
# The serial ports of a board

A board has two SPI controllers, one for the DAC and one for the ADC, each behind a switch of its own.
Whatever happens to a board, both stay sound (`Reachable.sound_controller`). While the supervisor is
connected to one of them, nobody else reaches it: it moves on by its own tick alone, and an access of the
supervisor to one of its registers is a transaction of the controller after that tick.
-/

namespace InstrumentBus

namespace Board

/-! ## Ports -/

/-- The SPI controllers of a board. -/
inductive Port where
  | dac0
  | adc0
deriving DecidableEq, Repr

namespace Port

/-- The shared device that a port is. -/
def shared : Port → Shared
  | .dac0 => .dac0
  | .adc0 => .adc0

/-- What is on the wires of a port. -/
def Device : Port → Type
  | .dac0 => Ad5791.Chip
  | .adc0 => Spi.Sampler

instance (p : Port) : SerialDevice p.Device :=
  match p with
  | .dac0 => inferInstanceAs (SerialDevice Ad5791.Chip)
  | .adc0 => inferInstanceAs (SerialDevice Spi.Sampler)

/-- The number of bits in a frame of a port. -/
def frameWidth (c : Config) : Port → Nat
  | .dac0 => Ad5791.frameWidth
  | .adc0 => c.adcBits

end Port

/-- The controller of a port. -/
def controller (b : Board) : (p : Port) → Spi.Controller p.Device
  | .dac0 => b.dac0.device
  | .adc0 => b.adc0.device

variable {c : Config} {b : Board} {p : Port}

/-! ## What becomes of a controller -/

theorem keeps_sound (δ : Type) (frameWidth cycles : Nat) :
    Target.Keeps fun k : Spi.Controller δ => k.Sound frameWidth cycles :=
  fun _ req sound => sound.transact req

/-- A step of the board leaves a controller sound, also where the player works on it. -/
theorem sound_tick {frameWidth cycles : Nat} (sound : (b.controller p).Sound frameWidth cycles) :
    (b.tick.controller p).Sound frameWidth cycles := by
  cases p with
  | dac0 =>
    have ram : Target.Keeps fun _ : BusSwitch.View Ram => True := fun _ _ _ => trivial
    have dac := BusSwitch.View.keeps_device (keeps_sound Ad5791.Chip frameWidth cycles)
    exact (Waveform.Player.tick_keeps ram dac b.wf0 (.mk ramPlayerMaster b.wf0Ram)
      (.mk dacPlayerMaster b.dac0.tick) trivial sound.tick).2
  | adc0 => exact sound.tick

/-- A transaction of a processor reaches a controller through its switch, or not at all. -/
theorem transact?_keeps {P : Spi.Controller p.Device → Prop} (keeps : Target.Keeps P)
    (before : P (b.controller p)) {side : Side} {block : Block} {req : Request}
    {answered : Response × Board} (result : b.transact? side block req = some answered) :
    P (answered.2.controller p) := by
  have switched {σ : Type} [Target σ] {Q : σ → Prop} (keeps : Target.Keeps Q) (s : BusSwitch σ)
      (master : Nat) (before : Q s.device) : Q (s.transact master req).2.device :=
    BusSwitch.View.keeps_device keeps (.mk master s) req before
  have selected {σ : Type} [Target σ] {Q : σ → Prop} (s : BusSwitch σ) (before : Q s.device) :
      Q (s.transactControl req).2.device := by
    rw [BusSwitch.device_transactControl]
    exact before
  cases side with
  | supervisor =>
    cases block with
    | dac0 =>
      cases result
      cases p with
      | dac0 => exact switched keeps b.dac0 supervisorMaster before
      | adc0 => exact before
    | adc0 =>
      cases result
      cases p with
      | dac0 => exact before
      | adc0 => exact switched keeps b.adc0 supervisorMaster before
    | dac0Select =>
      cases result
      cases p with
      | dac0 => exact selected b.dac0 before
      | adc0 => exact before
    | adc0Select =>
      cases result
      cases p with
      | dac0 => exact before
      | adc0 => exact selected b.adc0 before
    | _ => cases result; cases p <;> exact before
  | coprocessor =>
    cases block with
    | dac0 =>
      cases result
      cases p with
      | dac0 => exact switched keeps b.dac0 coprocessorMaster before
      | adc0 => exact before
    | adc0 =>
      cases result
      cases p with
      | dac0 => exact before
      | adc0 => exact switched keeps b.adc0 coprocessorMaster before
    | pico0Ram => cases result; cases p <;> exact before
    | clParams => cases result; cases p <;> exact before
    | _ => cases result

/-- The controllers of a board are sound. -/
theorem Reachable.sound_controller (reach : Reachable c b) (p : Port) :
    (b.controller p).Sound (p.frameWidth c) c.spiCycles := by
  refine reach.invariant ?assembled sound_tick (transact?_keeps (keeps_sound p.Device _ _)) ?sample ?core
  case assembled =>
    intro b assembled
    obtain ⟨_, _, ⟨wide, narrow⟩, -, -, rfl⟩ := assemble_eq_ok_iff.1 assembled
    cases p with
    | dac0 => exact Spi.Controller.sound_reset _ (by decide : 0 < 24) (by decide : 24 ≤ 32)
    | adc0 => exact Spi.Controller.sound_reset _ wide narrow
  case sample =>
    -- a new sample is in the device, of which soundness does not speak
    intro b raw sound
    cases p with
    | dac0 => exact sound
    | adc0 =>
      obtain ⟨width, delay, places, fits, ready, complete, bounded⟩ := sound
      exact ⟨width, delay, places, fits, ready, complete, bounded⟩
  case core =>
    intro b activity sound
    cases p <;> exact sound

/-! ## While the supervisor is connected -/

/-- Nothing but its own tick happens to the controller of the supervisor in a step of the board. -/
theorem controller_tick (owned : b.owner p.shared = supervisorMaster) :
    b.tick.controller p = (b.controller p).tick := by
  cases p with
  | dac0 =>
    -- the player writes to the DAC in a step of the board, but only while it is connected
    have other : b.owner .dac0 ≠ dacPlayerMaster := by
      show b.owner Port.dac0.shared ≠ dacPlayerMaster
      rw [owned]
      decide
    exact congrArg BusSwitch.device (dac0_tick_of_ne_owner other)
  | adc0 => rfl

theorem put_transact_of_owned {σ : Type} [Target σ] {s : BusSwitch σ}
    (owned : s.active = supervisorMaster) (req : Request) (put : BusSwitch σ → Board) :
    (s.transact supervisorMaster req).map id put =
      ((Target.transact s.device req).1, put { s with device := (Target.transact s.device req).2 }) := by
  rw [← owned, s.transact_of_active]
  rfl

theorem transact?_port (owned : b.owner p.shared = supervisorMaster) (req : Request) :
    ∃ after, b.transact? .supervisor p.shared.block req =
        some (((b.controller p).transact req).1, after) ∧
      after.controller p = ((b.controller p).transact req).2 ∧
      after.owner p.shared = supervisorMaster := by
  cases p with
  | dac0 =>
    have reaches := put_transact_of_owned owned req fun s => { b with dac0 := s }
    exact ⟨_, congrArg some reaches, rfl, owned⟩
  | adc0 =>
    have reaches := put_transact_of_owned owned req fun s => { b with adc0 := s }
    exact ⟨_, congrArg some reaches, rfl, owned⟩

/-- A read of a selection gives the owner, and changes nothing. -/
theorem transact?_select (b : Board) (d : Shared) :
    ∃ w : Word, w.toNat = b.owner d ∧
      b.transact? .supervisor d.selectBlock (.read 0) = some (.acked w, b) := by
  cases d with
  | dac0 => exact ⟨b.dac0.control.value 0, rfl, rfl⟩
  | adc0 => exact ⟨b.adc0.control.value 0, rfl, rfl⟩
  | wf0Ram => exact ⟨b.wf0Ram.control.value 0, rfl, rfl⟩
  | pico0Ram => exact ⟨b.pico0Ram.control.value 0, rfl, rfl⟩

/-! ## The registers of a port -/

/-- Where the supervisor sees a port. -/
def Port.origin : Port → Addr
  | .dac0 => 0x2000
  | .adc0 => 0x2100

/-- Where the supervisor sees the selection in front of a port. -/
def Port.selectOrigin : Port → Addr
  | .dac0 => 0x2200
  | .adc0 => 0x2204

/-- The masters of a port. -/
def Port.masters : Port → Array String
  | .dac0 => dac0Masters
  | .adc0 => adc0Masters

/-- The region of a port, as the supervisor sees it. -/
def Port.region (c : Config) (p : Port) : AddressMap.Region Block :=
  .ofLayout p.shared.name p.origin (Spi.Controller.layout (p.frameWidth c)) p.shared.block

/-- The region of the selection in front of a port. -/
def Port.selectRegion (p : Port) : AddressMap.Region Block :=
  .ofLayout (p.shared.name ++ "_pi") p.selectOrigin (BusSwitch.controlLayout p.masters.size)
    p.shared.selectBlock

theorem Reachable.holds_port (reach : Reachable c b) {i : Nat} {f : Field}
    (found : (Spi.Controller.layout (p.frameWidth c)).fields[i]? = some f) :
    AddressMap.HoldsRegister (b.map .supervisor) (p.region c)
      (Spi.Controller.layout (p.frameWidth c)) i f := by
  refine ⟨?_, rfl, found⟩
  rw [reach.mem_map]
  cases p with
  | dac0 => exact List.mem_cons_self
  | adc0 => exact List.mem_cons_of_mem _ List.mem_cons_self

theorem Reachable.holds_select (reach : Reachable c b) (p : Port) {f : Field}
    (found : (BusSwitch.controlLayout p.masters.size).fields[0]? = some f) :
    AddressMap.HoldsRegister (b.map .supervisor) p.selectRegion
      (BusSwitch.controlLayout p.masters.size) 0 f := by
  refine ⟨?_, rfl, found⟩
  rw [reach.mem_map]
  cases p with
  | dac0 =>
    have named : Port.selectRegion .dac0 =
        .ofLayout "dac0_pi" 0x2200 (BusSwitch.controlLayout dac0Masters.size) .dac0Select := by
      have name : Shared.dac0.name ++ "_pi" = "dac0_pi" := by decide
      rw [Port.selectRegion, Port.shared, name]
      rfl
    rw [named]
    simp [regionsOf, supervisorRegions]
  | adc0 =>
    have named : Port.selectRegion .adc0 =
        .ofLayout "adc0_pi" 0x2204 (BusSwitch.controlLayout adc0Masters.size) .adc0Select := by
      have name : Shared.adc0.name ++ "_pi" = "adc0_pi" := by decide
      rw [Port.selectRegion, Port.shared, name]
      rfl
    rw [named]
    simp [regionsOf, supervisorRegions]

/-- The supervisor is connected to a port of the board, and the controller there is `k`. -/
structure Leads (c : Config) (p : Port) (b : Board) (k : Spi.Controller p.Device) : Prop where
  reach : Reachable c b
  owned : b.owner p.shared = supervisorMaster
  controller : b.controller p = k

namespace Leads

variable {k : Spi.Controller p.Device} {i : Nat} {f : Field}

theorem sound (leads : Leads c p b k) : k.Sound (p.frameWidth c) c.spiCycles := by
  rw [← leads.controller]
  exact leads.reach.sound_controller p

theorem tick (leads : Leads c p b k) : Leads c p b.tick k.tick := by
  refine ⟨.step .tick leads.reach, ?_, ?_⟩
  · rw [owner_tick, leads.owned]
  · rw [controller_tick leads.owned, leads.controller]

/-- An access of the supervisor to a register of the port is a transaction of the controller, which moved
one step on before. -/
theorem perform (leads : Leads c p b k)
    (found : (Spi.Controller.layout (p.frameWidth c)).fields[i]? = some f) (op : Op)
    (here : op.addr = (p.region c).origin + Layout.offset i) :
    ∃ after, b.perform .supervisor op =
        (.ok (op.result (k.tick.transact (op.request.relocate (Layout.offset i))).1.data), after) ∧
      Leads c p after (k.tick.transact (op.request.relocate (Layout.offset i))).2 := by
  obtain ⟨answered, result, outcome⟩ :=
    leads.reach.perform_register (leads.reach.holds_port found) op here
  obtain ⟨after, reaches, controller, owned⟩ :=
    transact?_port leads.tick.owned (op.request.relocate (Layout.offset i))
  rw [leads.tick.controller] at reaches controller
  cases reaches.symm.trans result
  exact ⟨after, outcome, leads.reach.of_perform outcome, owned, controller⟩

theorem readWord (leads : Leads c p b k)
    (found : (Spi.Controller.layout (p.frameWidth c)).fields[i]? = some f) :
    ∃ after, Transport.readWord (View.mk .supervisor b) ((p.region c).origin + Layout.offset i) =
        (.ok (k.tick.registers.value i), View.mk .supervisor after) ∧ Leads c p after k.tick := by
  obtain ⟨after, performed, left⟩ := leads.perform found (.readWord _) rfl
  have answer : k.tick.transact ((Op.readWord ((p.region c).origin + Layout.offset i)).request.relocate
      (Layout.offset i)) = (.acked (k.tick.registers.value i), k.tick) :=
    leads.tick.sound.transact_read (leads.tick.sound.field found)
  rw [answer] at performed left
  exact ⟨after, View.readWord_of_perform performed, left⟩

theorem writeWord (leads : Leads c p b k)
    (found : (Spi.Controller.layout (p.frameWidth c)).fields[i]? = some f) (w : Word) :
    ∃ after, Transport.writeWord (View.mk .supervisor b) ((p.region c).origin + Layout.offset i) w =
        (.ok (), View.mk .supervisor after) ∧ Leads c p after (k.tick.put i w) := by
  obtain ⟨after, performed, left⟩ := leads.perform found (.writeWord _ w) rfl
  exact ⟨after, View.writeWord_of_perform performed, left⟩

theorem readWord_select (leads : Leads c p b k) :
    ∃ after, Transport.readWord (View.mk .supervisor b) (p.selectRegion.origin + Layout.offset 0) =
        (.ok 0, View.mk .supervisor after) ∧ Leads c p after k.tick := by
  obtain ⟨answered, result, outcome⟩ :=
    leads.reach.perform_register (leads.reach.holds_select p rfl) (.readWord _) rfl
  obtain ⟨w, connected, reads⟩ := transact?_select b.tick p.shared
  have first : w = 0 := by
    apply BitVec.eq_of_toNat_eq
    rw [connected, leads.tick.owned]
    rfl
  cases reads.symm.trans result
  refine ⟨b.tick, View.readWord_of_perform ?_, leads.tick⟩
  rw [outcome, first]
  rfl

end Leads

/-! ## The driver of a port -/

/-- A register of a region as the supervisor's manifest resolves it. -/
def refOf (region : AddressMap.Region Block) (i : Nat) (f : Field) : RegisterRef :=
  { name := s!"{region.name}.{f.name}", addr := region.origin + Layout.offset i, width := f.width,
    access := f.access, side := .supervisor }

/-- The supervisor's reference to a register that it may write is granted. -/
theorem checkWritable_refOf {region : AddressMap.Region Block} {i : Nat} {f : Field}
    (writable : f.access = .readWrite) : (refOf region i f).checkWritable = .ok () := by
  simp [RegisterRef.checkWritable, refOf, writable, Access.writableBy]

open Spi.Controller in
/-- The driver of a port. -/
def Port.driver (c : Config) (p : Port) (id : Nat) : SpiDriver :=
  let select : Field :=
    { name := "master_select", width := max 1 (bitLength (p.masters.size - 1)), access := .readWrite }
  { name := p.shared.name
    arbiter := { id, name := p.shared.name, selection := refOf p.selectRegion 0 select }
    readyToArm := refOf (p.region c) readyToArm ⟨"ready_to_arm", 1, .readOnly⟩
    finished := refOf (p.region c) finished ⟨"finished", 1, .readOnly⟩
    arm := refOf (p.region c) arm ⟨"arm", 1, .readWrite⟩
    fromSlave := refOf (p.region c) fromSlave ⟨"from_slave", p.frameWidth c, .readOnly⟩
    toSlave := refOf (p.region c) toSlave ⟨"to_slave", p.frameWidth c, .readWrite⟩
    pollLimit := standardPollLimit }

/-- The supervisor's manifest leads to the arbiter in front of a port. -/
theorem Reachable.ofManifest_arbiter (reach : Reachable c b) (p : Port) (id : Nat) :
    Arbiter.ofManifest id (b.manifest .supervisor) p.shared.name = .ok (p.driver c id).arbiter :=
  congrArg (Except.map fun selection => Arbiter.mk id p.shared.name selection)
    (reach.resolve_register (reach.holds_select p rfl))

/-- The supervisor's manifest leads to the driver of a port. -/
theorem Reachable.ofManifest_port (reach : Reachable c b) (p : Port) (id : Nat) :
    SpiDriver.ofManifest id (b.manifest .supervisor) p.shared.name = .ok (p.driver c id) := by
  have arbiter := reach.ofManifest_arbiter p id
  have register {i : Nat} {name : String} {width : Nat} {access : Access}
      (found : (Spi.Controller.layout (p.frameWidth c)).fields[i]? = some ⟨name, width, access⟩) :
      RegisterRef.resolve (b.manifest .supervisor) p.shared.name name =
        .ok (refOf (p.region c) i ⟨name, width, access⟩) :=
    reach.resolve_register (reach.holds_port found)
  simp only [SpiDriver.ofManifest, arbiter, register Spi.Controller.readyToArm_field,
    register Spi.Controller.finished_field, register Spi.Controller.arm_field,
    register Spi.Controller.fromSlave_field, register Spi.Controller.toSlave_field]
  rfl

end Board

end InstrumentBus
