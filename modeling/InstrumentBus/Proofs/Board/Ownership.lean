import InstrumentBus.Proofs.Board.Faults
import InstrumentBus.Proofs.Bus.Ports

/-!
# Shared devices and their owners

Four devices of the board are behind switches, and each has one owner at a time. Nothing that the
board does by itself moves an owner (`owner_tick`). A master that is not the owner gets a zero at
once and changes nothing: `disconnected_masters_only_tick` says so for the accesses of the two
processors and for the player on the DAC.
-/

namespace InstrumentBus.Board

variable {c : Config} {b : Board}

/-- The devices of the board that several masters share. -/
inductive Shared where
  | dac0
  | adc0
  | wf0Ram
  | pico0Ram
deriving DecidableEq, Repr

/-- The name of a shared device's region. -/
def Shared.name : Shared → String
  | .dac0 => "dac0"
  | .adc0 => "adc0"
  | .wf0Ram => "wf0_ram"
  | .pico0Ram => "pico0_ram"

/-- The block through which the masters of a shared device reach it. -/
def Shared.block : Shared → Block
  | .dac0 => .dac0
  | .adc0 => .adc0
  | .wf0Ram => .wf0Ram
  | .pico0Ram => .pico0Ram

/-- The index of the master that is connected to a shared device. -/
def owner (b : Board) : Shared → Nat
  | .dac0 => b.dac0.active
  | .adc0 => b.adc0.active
  | .wf0Ram => b.wf0Ram.active
  | .pico0Ram => b.pico0Ram.active

/-! ## One step -/

/-- The board does not move the connection of a device by itself. -/
theorem owner_tick (b : Board) (d : Shared) : b.tick.owner d = b.owner d := by
  have player := Waveform.Player.tick_keeps
    (BusSwitch.View.keeps_active b.wf0Ram.active) (BusSwitch.View.keeps_active b.dac0.active)
    b.wf0 (.mk ramPlayerMaster b.wf0Ram) (.mk dacPlayerMaster b.dac0.tick) rfl rfl
  cases d with
  | dac0 => exact player.2
  | adc0 => rfl
  | wf0Ram => exact player.1
  | pico0Ram =>
    exact Coprocessor.tick_keeps (BusSwitch.View.keeps_active b.pico0Ram.active) b.pico0
      (.mk coprocessorMaster b.pico0Ram) rfl

/-- While the player is not connected to the DAC, the DAC's own step is all that happens to it. -/
theorem dac0_tick_of_ne_owner (other : b.owner .dac0 ≠ dacPlayerMaster) :
    b.tick.dac0 = b.dac0.tick := by
  have disconnected : dacPlayerMaster ≠ b.dac0.tick.active := fun same => other same.symm
  have player := Waveform.Player.tick_keeps
    (BusSwitch.View.keeps_active b.wf0Ram.active)
    (BusSwitch.View.keeps_of_ne_active (.mk dacPlayerMaster b.dac0.tick) disconnected)
    b.wf0 (.mk ramPlayerMaster b.wf0Ram) (.mk dacPlayerMaster b.dac0.tick) rfl rfl
  exact congrArg BusSwitch.View.switch player.2

/-! ## Accesses of the processors -/

/-- The region that has the name of a shared device leads to that device. -/
theorem owner_of_name {side : Side} {region : AddressMap.Region Block} {d : Shared}
    (present : region ∈ regionsOf c side) (named : region.name = d.name) :
    region.owner = d.block := by
  have usual : ∀ r ∈ regionsOf .standard side, r.name = d.name → r.owner = d.block := by
    cases side <;> cases d <;> decide
  exact regionsOf_of_standard (P := fun name owner => name = d.name → owner = d.block) usual
    present named

/-- The supervisor is the first master of every shared device, and the co-processor the second of
those that it shares. -/
theorem masterIndex?_key (d : Shared) (side : Side) : masterIndex? d.name side.key =
    match side with
    | .supervisor => some supervisorMaster
    | .coprocessor => if d = .wf0Ram then none else some coprocessorMaster := by
  cases side <;> cases d <;> decide +kernel

theorem masterIndex?_waveform : masterIndex? "dac0" "waveform" = some dacPlayerMaster := by
  decide +kernel

theorem put_transact_of_ne_active {σ : Type} [Target σ] {s : BusSwitch σ} {master : Nat}
    (other : master ≠ s.active) (req : Request) (put : BusSwitch σ → Board) :
    (s.transact master req).map id put = (.idle, put s) := by
  rw [BusSwitch.transact_of_ne_active other]
  rfl

/-- A processor that is not connected to a device sees an idle bus there and touches nothing. -/
theorem transact?_of_ne_owner {side : Side} {d : Shared} {master : Nat}
    (index : masterIndex? d.name side.key = some master) (other : b.owner d ≠ master)
    (req : Request) : b.transact? side d.block req = some (.idle, b) := by
  rw [masterIndex?_key] at index
  cases side with
  | supervisor =>
    cases d with
    | dac0 =>
      cases index
      exact congrArg some (put_transact_of_ne_active other.symm req fun s => { b with dac0 := s })
    | adc0 =>
      cases index
      exact congrArg some (put_transact_of_ne_active other.symm req fun s => { b with adc0 := s })
    | wf0Ram =>
      cases index
      exact congrArg some (put_transact_of_ne_active other.symm req fun s => { b with wf0Ram := s })
    | pico0Ram =>
      cases index
      exact congrArg some (put_transact_of_ne_active other.symm req fun s => { b with pico0Ram := s })
  | coprocessor =>
    cases d with
    | dac0 =>
      cases index
      exact congrArg some (put_transact_of_ne_active other.symm req fun s => { b with dac0 := s })
    | adc0 =>
      cases index
      exact congrArg some (put_transact_of_ne_active other.symm req fun s => { b with adc0 := s })
    | wf0Ram => cases index
    | pico0Ram =>
      cases index
      exact congrArg some (put_transact_of_ne_active other.symm req fun s => { b with pico0Ram := s })

/-- A master that is not connected does nothing. An access of a processor to a shared device delivers
zero and leaves the board that its step alone leaves, and the player leaves the DAC to its own step,
whatever the player's registers and state are. -/
theorem disconnected_masters_only_tick (reach : Reachable c b) :
    (∀ (side : Side) (d : Shared) (master : Nat), masterIndex? d.name side.key = some master →
      b.owner d ≠ master →
      ∀ region ∈ (b.map side).regions, region.name = d.name →
      ∀ op : Op, op.Aligned → op.addr.wordBase ∈ region →
        b.perform side op = (.ok 0, b.tick)) ∧
    (∀ master, masterIndex? "dac0" "waveform" = some master → b.owner .dac0 ≠ master →
      ∀ player : Waveform.Player, ({ b with wf0 := player } : Board).tick.dac0 = b.dac0.tick) := by
  constructor
  · intro side d master index other region present named op aligned inside
    obtain ⟨answered, result, outcome⟩ := reach.perform_of_mem op present inside aligned
    have stillOther : b.tick.owner d ≠ master := by rwa [owner_tick]
    rw [owner_of_name (reach.mem_map.1 present) named, transact?_of_ne_owner index stillOther]
      at result
    cases result
    have zero : op.result Response.idle.data = 0 := op.result_zero
    rw [outcome, zero]
  · intro master index other player
    rw [masterIndex?_waveform] at index
    cases index
    exact dac0_tick_of_ne_owner (b := { b with wf0 := player }) other

/-- At reset the supervisor owns the DAC: a frame that the co-processor loads is lost, and so is
whatever a player that already runs wants to send. -/
theorem dac_ignores_others_at_reset : ∃ b, Reachable .standard b ∧
    b.perform .coprocessor (.writeWord 0x20010 7) = (.ok 0, b.tick) ∧
    ({ b with wf0 := { b.wf0 with state := .running } } : Board).tick.dac0 = b.dac0.tick := by
  obtain ⟨b, assembled⟩ := assemble_standard
  have reach : Reachable .standard b := .assembled assembled
  have supervised : b.owner .dac0 = supervisorMaster := by
    obtain ⟨_, _, _, _, _, rfl⟩ := assemble_eq_ok_iff.1 assembled
    rfl
  have present : .ofLayout "dac0" 0x20000 dacLayout .dac0 ∈ (b.map .coprocessor).regions := by
    rw [reach.mem_map]
    simp [regionsOf, coprocessorRegions]
  obtain ⟨accesses, player⟩ := disconnected_masters_only_tick reach
  refine ⟨b, reach, ?_, ?_⟩
  · exact accesses .coprocessor .dac0 coprocessorMaster (masterIndex?_key _ _)
      (by rw [supervised]; decide) _ present rfl _ (by decide) (by decide)
  · exact player dacPlayerMaster masterIndex?_waveform (by rw [supervised]; decide) _

end InstrumentBus.Board
