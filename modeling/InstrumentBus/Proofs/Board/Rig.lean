import InstrumentBus.Proofs.Board.Ownership
import InstrumentBus.Proofs.Waveform.Rig

/-!
# The player of a board

The player of a board stands between the switch of the sample RAM and the switch of the DAC, so that it
makes a rig with them. A step of the board is a step of this rig, and a transaction of a processor is an
event of the rig or does not reach it (`Block.rigEvent?`). So an access to a board is a step of its rig
and then at most one event, and the rig of a reachable board is reachable.
-/

namespace InstrumentBus.Board

open Waveform (Rig)

variable {c : Config} {b : Board}

/-- The player of a board between the switches of its samples and of the DAC. -/
def rig (b : Board) : Rig :=
  { player := b.wf0, ram := .mk ramPlayerMaster b.wf0Ram, dac := .mk dacPlayerMaster b.dac0 }

/-- A step of a board is a step of its rig. -/
theorem rig_tick (b : Board) : b.tick.rig = b.rig.tick :=
  Rig.tick_ports b.rig

/-- What a transaction of a processor with a block is to the rig. -/
def Block.rigEvent? (block : Block) (side : Side) (req : Request) : Option Rig.Event :=
  match side, block with
  | .supervisor, .dac0 => some (.dac supervisorMaster req)
  | .supervisor, .dac0Select => some (.selectDac req)
  | .supervisor, .wf0RamSelect => some (.selectRam req)
  | .supervisor, .wf0 => some (.configure req)
  | .supervisor, .wf0Ram => some (.ram supervisorMaster req)
  | .coprocessor, .dac0 => some (.dac coprocessorMaster req)
  | _, _ => none

theorem rig_transact? {side : Side} {block : Block} {req : Request} {answered : Response × Board}
    (result : b.transact? side block req = some answered) :
    answered.2.rig = b.rig.stepIf (block.rigEvent? side req) := by
  cases side with
  | supervisor => cases block <;> cases result <;> rfl
  | coprocessor =>
    cases block with
    | dac0 => cases result; rfl
    | adc0 => cases result; rfl
    | pico0Ram => cases result; rfl
    | clParams => cases result; rfl
    | _ => cases result

/-- No read of a processor is an event that changes the rig. -/
theorem Block.stepIf_read (block : Block) (side : Side) (addr : Addr) (r : Rig) :
    r.stepIf (block.rigEvent? side (.read addr)) = r := by
  have registers : (r.player.transact (.read addr)).2 = r.player :=
    congrArg (fun registers => { r.player with registers }) (RegisterFile.transactFrom_read_state _ _ _)
  have select {σ : Type} (s : BusSwitch σ) : (s.transactControl (.read addr)).2 = s :=
    s.transactControl_of_beside fun _ _ => Request.noConfusion
  have samples (master : Nat) : (r.ram.switch.transact master (.read addr)).2 = r.ram.switch := by
    unfold BusSwitch.transact
    split <;> rfl
  have dac (master : Nat) : (r.dac.switch.transact master (.read addr)).2 = r.dac.switch := by
    unfold BusSwitch.transact
    split
    · exact congrArg (fun registers =>
          { r.dac.switch with device := { r.dac.switch.device with registers } })
        (RegisterFile.transactFrom_read_state _ _ _)
    · rfl
  have event (e : Rig.Event) (reaches : block.rigEvent? side (.read addr) = some e) : r.step e = r := by
    cases side with
    | supervisor =>
      cases block with
      | dac0 => cases reaches; rw [Rig.step, dac]
      | dac0Select => cases reaches; rw [Rig.step, select]
      | wf0RamSelect => cases reaches; rw [Rig.step, select]
      | wf0 => cases reaches; rw [Rig.step, registers]
      | wf0Ram => cases reaches; rw [Rig.step, samples]
      | _ => cases reaches
    | coprocessor =>
      cases block with
      | dac0 => cases reaches; rw [Rig.step, dac]
      | _ => cases reaches
  cases reaches : block.rigEvent? side (.read addr) with
  | none => rfl
  | some e => exact event e reaches

/-- An access fails and leaves the board as it is, or is a step of the rig and at most one event. -/
theorem Reachable.rig_perform (reach : Reachable c b) (side : Side) (op : Op) :
    ((∃ fault, (b.perform side op).1 = .error fault) ∧ (b.perform side op).2 = b) ∨
    ∃ region ∈ (b.map side).regions, op.addr.wordBase ∈ region ∧
      (∃ w, (b.perform side op).1 = .ok w) ∧
      (b.perform side op).2.rig = b.rig.tick.stepIf (region.owner.rigEvent? side
        (op.request.relocate (region.offsetOf op.addr.wordBase))) := by
  rcases reach.perform_cases side op with
    ⟨-, outcome⟩ | ⟨-, -, outcome⟩ | ⟨-, region, present, inside, answered, result, outcome⟩
  · rw [outcome]
    exact .inl ⟨⟨_, rfl⟩, rfl⟩
  · rw [outcome]
    exact .inl ⟨⟨_, rfl⟩, rfl⟩
  · rw [outcome]
    refine .inr ⟨region, present, inside, ⟨_, rfl⟩, ?_⟩
    rw [rig_transact? result, rig_tick]

theorem Reachable.rig (reach : Reachable c b) : b.rig.Sound c.spiCycles ∧ b.rig.Seated 2 3 := by
  refine reach.invariant ?assembled ?tick ?transact (fun _ kept => kept) fun _ kept => kept
  case assembled =>
    intro b assembled
    obtain ⟨_, _, -, -, -, rfl⟩ := assemble_eq_ok_iff.1 assembled
    refine ⟨⟨Waveform.Player.sound_reset, ?_⟩, ⟨rfl, Nat.succ_pos 1⟩, ⟨rfl, Nat.succ_pos 2⟩⟩
    exact Spi.Controller.sound_reset _ (by decide) (by decide)
  case tick =>
    rintro b ⟨sound, seated⟩
    rw [rig_tick]
    exact ⟨sound.tick, seated.tick⟩
  case transact =>
    rintro b ⟨sound, seated⟩ side block req answered result
    rw [rig_transact? result]
    exact ⟨sound.stepIf _, seated.stepIf _⟩

end InstrumentBus.Board
