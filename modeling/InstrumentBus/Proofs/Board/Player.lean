import InstrumentBus.Proofs.Board.Serial
import InstrumentBus.Proofs.Driver.Triple

/-!
# The driver of the player on a board

The supervisor's manifest leads to one driver of the player (`Reachable.ofManifest_player`). The registers
of a board keep apart: an access to one of them reaches no other region (`Reachable.reaches_register`), and
so the driver of the player never reaches the controller of the DAC (`Reachable.playerDriver_writes`).
-/

namespace InstrumentBus.Board

open Waveform (Player)

variable {c : Config} {b : Board}

/-! ## Where an access goes -/

/-- An access at the address of a register is an access to this register and to no other region. -/
theorem Reachable.reaches_register (reach : Reachable c b) {side : Side}
    {region : AddressMap.Region Block} {layout : Layout} {i : Nat} {f : Field}
    (here : AddressMap.HoldsRegister (b.map side) region layout i f)
    {other : AddressMap.Region Block} (present : other ∈ (b.map side).regions)
    (inside : (region.origin + Layout.offset i).wordBase ∈ other) :
    other = region ∧ region.offsetOf (region.origin + Layout.offset i).wordBase = Layout.offset i := by
  have arranged := reach.arranged side
  have banked := reach.banked side
  rw [Addr.wordBase_of_aligned (here.aligned arranged banked)] at inside ⊢
  have within : region.origin + Layout.offset i ∈ region :=
    here.mem_span arranged banked (show 0 < 4 by decide)
  refine ⟨(arranged.eq_of_mem_span here.present present within inside).symm, ?_⟩
  rw [AddressMap.Region.offsetOf_eq_sub (arranged.placed here.present) within, BitVec.add_comm,
    BitVec.add_sub_cancel]

/-! ## The regions of the player -/

/-- The region of the player, as the supervisor sees it. -/
def playerRegion : AddressMap.Region Block :=
  .ofLayout "wf0" 0x3000 Player.layout .wf0

/-- The region of the samples. -/
def samplesRegion (c : Config) : AddressMap.Region Block :=
  .plain "wf0_ram" 0x4000 c.ramBytes .wf0Ram

/-- The region of the selection in front of the samples. -/
def samplesSelectRegion : AddressMap.Region Block :=
  .ofLayout "wf0_ram_pi" 0x2208 (BusSwitch.controlLayout wf0RamMasters.size) .wf0RamSelect

theorem Reachable.holds_player (reach : Reachable c b) {i : Nat} {f : Field}
    (found : Player.layout.fields[i]? = some f) :
    AddressMap.HoldsRegister (b.map .supervisor) playerRegion Player.layout i f := by
  refine ⟨?_, rfl, found⟩
  rw [reach.mem_map]
  simp [playerRegion, regionsOf, supervisorRegions]

theorem Reachable.holds_samplesSelect (reach : Reachable c b) :
    AddressMap.HoldsRegister (b.map .supervisor) samplesSelectRegion
      (BusSwitch.controlLayout wf0RamMasters.size) 0 ⟨"master_select", 1, .readWrite⟩ := by
  refine ⟨?_, rfl, rfl⟩
  rw [reach.mem_map]
  simp [samplesSelectRegion, regionsOf, supervisorRegions]

theorem Reachable.mem_samplesRegion (reach : Reachable c b) :
    samplesRegion c ∈ (b.map .supervisor).regions := by
  rw [reach.mem_map]
  simp [samplesRegion, regionsOf, supervisorRegions]

/-! ## The driver -/

/-- The driver of the player, for a player with these indices on the two arbiters. -/
def playerDriver (c : Config) (id ramMaster dacMaster : Nat) : WaveformDriver :=
  { name := "wf0"
    ram := { id, name := "wf0_ram",
             selection := refOf samplesSelectRegion 0 ⟨"master_select", 1, .readWrite⟩ }
    ramOrigin := 0x4000
    ramSize := c.ramBytes.toNat
    ramMaster, dacMaster
    run := refOf playerRegion Player.run ⟨"run", 1, .readWrite⟩
    forceStop := refOf playerRegion Player.forceStop ⟨"force_stop", 1, .readWrite⟩
    doLoop := refOf playerRegion Player.doLoop ⟨"do_loop", 1, .readWrite⟩
    width := refOf playerRegion Player.width ⟨"wform_width", 16, .readWrite⟩
    spacing := refOf playerRegion Player.spacing ⟨"timer_spacing", 32, .readWrite⟩
    finishedOrReady := refOf playerRegion Player.finishedOrReady ⟨"finished_or_ready", 1, .readOnly⟩
    finished := refOf playerRegion Player.finished ⟨"finished", 1, .readOnly⟩
    cursor := refOf playerRegion Player.cursor ⟨"cursor", 16, .readOnly⟩
    pollLimit := standardPollLimit }

/-- The supervisor's manifest leads to the driver of the player. -/
theorem Reachable.ofManifest_player (reach : Reachable c b) (id ramMaster dacMaster : Nat) :
    WaveformDriver.ofManifest id (b.manifest .supervisor) "wf0" ramMaster dacMaster =
      .ok (playerDriver c id ramMaster dacMaster) := by
  have samples : (b.manifest .supervisor).region? "wf0_ram" = some (samplesRegion c).entry :=
    AddressMap.manifest_region? (reach.arranged .supervisor) reach.mem_samplesRegion
  have bounds : (b.manifest .supervisor).bounds "wf0_ram" = .ok (0x4000, c.ramBytes) := by
    rw [Manifest.bounds, samples]
    rfl
  have select := reach.resolve_register reach.holds_samplesSelect
  have arbiter : Arbiter.ofManifest id (b.manifest .supervisor) "wf0_ram" =
      .ok (playerDriver c id ramMaster dacMaster).ram :=
    congrArg (Except.map fun selection => Arbiter.mk id "wf0_ram" selection) select
  have register {i : Nat} {name : String} {width : Nat} {access : Access}
      (found : Player.layout.fields[i]? = some ⟨name, width, access⟩) :
      RegisterRef.resolve (b.manifest .supervisor) "wf0" name =
        .ok (refOf playerRegion i ⟨name, width, access⟩) :=
    reach.resolve_register (reach.holds_player found)
  have named (name : String) (same : name = "wf0") : s!"{name}_ram" = "wf0_ram" := by
    subst same
    decide
  simp only [WaveformDriver.ofManifest, named "wf0" rfl, bounds, arbiter, register (i := Player.run) rfl,
    register (i := Player.forceStop) rfl, register (i := Player.doLoop) rfl,
    register (i := Player.width) rfl, register (i := Player.spacing) rfl,
    register (i := Player.finishedOrReady) rfl, register (i := Player.finished) rfl,
    register (i := Player.cursor) rfl]
  rfl

/-- The words of the samples that the driver writes lie in the region of the samples. -/
theorem Reachable.mem_samples (reach : Reachable c b) {i : Nat} (within : i < c.ramBytes.toNat / 4) :
    ((0x4000 : Addr) + 4 * BitVec.ofNat 32 i).wordBase ∈ samplesRegion c ∧
      ((0x4000 : Addr) + 4 * BitVec.ofNat 32 i).Aligned ∧
      ((0x4000 : Addr) + 4 * BitVec.ofNat 32 i).toNat = 0x4000 + 4 * i := by
  have limit := ((reach.arranged .supervisor).placed reach.mem_samplesRegion).limit_le
  have bound : 0x4000 + c.ramBytes.toNat ≤ 2 ^ 32 := limit
  have place : ((0x4000 : Addr) + 4 * BitVec.ofNat 32 i).toNat = 0x4000 + 4 * i := by
    have origin : (0x4000 : Addr).toNat = 0x4000 := rfl
    have four : (4 : Addr).toNat = 4 := rfl
    rw [BitVec.toNat_add, BitVec.toNat_mul, BitVec.toNat_ofNat, origin, four]
    omega
  have aligned : ((0x4000 : Addr) + 4 * BitVec.ofNat 32 i).Aligned := by
    rw [Addr.Aligned, place]
    omega
  refine ⟨?_, aligned, place⟩
  rw [Addr.wordBase_of_aligned aligned, AddressMap.Region.mem_iff, place]
  exact ⟨Nat.le_add_right _ _, show 0x4000 + 4 * i < 0x4000 + c.ramBytes.toNat by omega⟩

/-- The driver of the player writes to no region but those of the player and of the samples. -/
theorem Reachable.playerDriver_writes (reach : Reachable c b) {id ramMaster dacMaster : Nat}
    {addr : Addr} (writes : (playerDriver c id ramMaster dacMaster).Writes addr)
    {region : AddressMap.Region Block} (present : region ∈ (b.map .supervisor).regions)
    (inside : addr.wordBase ∈ region) :
    region.owner = .wf0 ∨ region.owner = .wf0RamSelect ∨ region.owner = .wf0Ram := by
  have setting {i : Nat} {f : Field} (found : Player.layout.fields[i]? = some f)
      (here : addr = (refOf playerRegion i f).addr) :
      region.owner = .wf0 ∨ region.owner = .wf0RamSelect ∨ region.owner = .wf0Ram := by
    subst here
    rw [(reach.reaches_register (reach.holds_player found) present inside).1]
    exact .inl rfl
  rcases writes with run | forceStop | doLoop | width | spacing | select | ⟨i, within, rfl⟩
  · exact setting rfl run
  · exact setting rfl forceStop
  · exact setting rfl doLoop
  · exact setting rfl width
  · exact setting rfl spacing
  · subst select
    rw [(reach.reaches_register reach.holds_samplesSelect present inside).1]
    exact .inr (.inl rfl)
  · have fits : i < c.ramBytes.toNat / 4 := Nat.lt_of_lt_of_le within (Nat.min_le_left _ _)
    obtain ⟨here, -⟩ := reach.mem_samples fits
    obtain rfl := (reach.arranged .supervisor).eq_of_mem_span present reach.mem_samplesRegion inside here
    exact .inr (.inr rfl)

end InstrumentBus.Board
