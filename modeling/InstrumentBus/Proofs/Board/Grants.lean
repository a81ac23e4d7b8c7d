import InstrumentBus.Proofs.Board.Starting
import InstrumentBus.Proofs.Manifest.Words

/-!
# Grants that were obtained on a board

The arbiters of the supervisor's manifest are those in front of the four shared devices
(`Reachable.guards_of_ofManifest`). A grant that one of them issued names a master that its device really has
(`Obtained.guards`): the grant of a master tells of which devices it can be.
-/

namespace InstrumentBus.Board

open InstrumentBus.Action (Meets)

variable {c : Config} {b : Board} {d : Shared} {g : Grant} {v : View}

/-! ## The masters of the shared devices -/

/-- The masters of a shared device. -/
def Shared.masters : Shared → Array String
  | .dac0 => dac0Masters
  | .adc0 => adc0Masters
  | .wf0Ram => wf0RamMasters
  | .pico0Ram => pico0RamMasters

/-- Only the DAC has a third master. -/
theorem Shared.eq_dac0_of_lt_masters (third : dacPlayerMaster < d.masters.size) : d = .dac0 := by
  cases d with
  | dac0 => rfl
  | _ => exact absurd third (by decide)

/-- The switches that are not the player's ports connect one of their masters. -/
structure Seats (b : Board) : Prop where
  adc : b.adc0.Seated 2
  program : b.pico0Ram.Seated 2

theorem Seats.tick (seats : Seats b) : Seats b.tick := by
  refine ⟨seats.adc, ?_⟩
  exact Coprocessor.tick_keeps (BusSwitch.View.keeps_seated 2) b.pico0
    (.mk coprocessorMaster b.pico0Ram) seats.program

theorem Seats.transact? (seats : Seats b) {side : Side} {block : Block} {req : Request}
    {answered : Response × Board} (result : b.transact? side block req = some answered) :
    Seats answered.2 := by
  cases side with
  | supervisor =>
    cases block with
    | adc0 => cases result; exact ⟨seats.adc.transact _ _, seats.program⟩
    | adc0Select => cases result; exact ⟨seats.adc.transactControl _, seats.program⟩
    | pico0Ram => cases result; exact ⟨seats.adc, seats.program.transact _ _⟩
    | pico0RamSelect => cases result; exact ⟨seats.adc, seats.program.transactControl _⟩
    | _ => cases result; exact ⟨seats.adc, seats.program⟩
  | coprocessor =>
    cases block with
    | adc0 => cases result; exact ⟨seats.adc.transact _ _, seats.program⟩
    | pico0Ram => cases result; exact ⟨seats.adc, seats.program.transact _ _⟩
    | dac0 => cases result; exact ⟨seats.adc, seats.program⟩
    | clParams => cases result; exact ⟨seats.adc, seats.program⟩
    | _ => cases result

theorem Reachable.seats (reach : Reachable c b) : Seats b := by
  refine reach.invariant ?assembled Seats.tick Seats.transact? (fun _ seats => ⟨seats.adc, seats.program⟩)
    fun _ seats => ⟨seats.adc, seats.program⟩
  case assembled =>
    intro b assembled
    obtain ⟨_, _, -, -, -, rfl⟩ := assemble_eq_ok_iff.1 assembled
    exact ⟨⟨rfl, Nat.succ_pos 1⟩, ⟨rfl, Nat.succ_pos 1⟩⟩

/-- The owner of a device is one of its masters. -/
theorem Reachable.owner_lt (reach : Reachable c b) (d : Shared) : b.owner d < d.masters.size := by
  cases d with
  | dac0 => exact reach.rig.2.dac.2
  | adc0 => exact reach.seats.adc.2
  | wf0Ram => exact reach.rig.2.ram.2
  | pico0Ram => exact reach.seats.program.2

/-! ## The arbiters of a manifest -/

/-- The region of the selection in front of a shared device. -/
def Shared.selectRegion (d : Shared) : AddressMap.Region Block :=
  let place : String × Addr :=
    match d with
    | .dac0 => ("dac0_pi", 0x2200)
    | .adc0 => ("adc0_pi", 0x2204)
    | .wf0Ram => ("wf0_ram_pi", 0x2208)
    | .pico0Ram => ("pico0_ram_pi", 0x220C)
  .ofLayout place.1 place.2 (BusSwitch.controlLayout d.masters.size) d.selectBlock

theorem selectRegion_of_owner {region : AddressMap.Region Block} (present : region ∈ regionsOf c .supervisor)
    (selects : region.owner = d.selectBlock) : region = d.selectRegion := by
  simp only [regionsOf, supervisorRegions, List.mem_cons, List.not_mem_nil, or_false] at present
  rcases present with rfl | rfl | rfl | rfl | rfl | rfl | rfl | rfl | rfl | rfl | rfl | rfl | rfl <;>
    cases d <;> first | rfl | cases selects

theorem Reachable.mem_selectRegion (reach : Reachable c b) (d : Shared) :
    d.selectRegion ∈ (b.map .supervisor).regions := by
  rw [reach.mem_map]
  cases d <;> simp [regionsOf, supervisorRegions, Shared.selectRegion, Shared.selectBlock, Shared.masters]

theorem Reachable.holds_selection (reach : Reachable c b) (d : Shared) :
    AddressMap.HoldsRegister (b.map .supervisor) d.selectRegion
      (BusSwitch.controlLayout d.masters.size) 0
      ⟨"master_select", (BusSwitch.controlLayout d.masters.size).widthAt 0, .readWrite⟩ :=
  ⟨reach.mem_selectRegion d, rfl, rfl⟩

/-- A region whose name ends like that of a selection is one. -/
theorem selectRegion_of_name {region : AddressMap.Region Block} (present : region ∈ regionsOf c .supervisor)
    {name : String} (named : region.name = name ++ "_pi") : ∃ d : Shared, region = d.selectRegion := by
  have ends : region.name.toList.getLast? = some 'i' := by
    rw [named, String.toList_append, List.getLast?_append]
    rfl
  have usual : ∀ r ∈ regionsOf .standard .supervisor, r.name.toList.getLast? = some 'i' →
      r.owner ∈ [Shared.dac0, .adc0, .wf0Ram, .pico0Ram].map Shared.selectBlock := by decide
  have selects := regionsOf_of_standard (P := fun name owner => name.toList.getLast? = some 'i' →
    owner ∈ [Shared.dac0, .adc0, .wf0Ram, .pico0Ram].map Shared.selectBlock) usual present ends
  obtain ⟨d, -, block⟩ := List.mem_map.1 selects
  exact ⟨d, selectRegion_of_owner present block.symm⟩

/-- The register that selects the master of a shared device. -/
def Shared.selection (d : Shared) : RegisterRef :=
  refOf d.selectRegion 0
    ⟨"master_select", (BusSwitch.controlLayout d.masters.size).widthAt 0, .readWrite⟩

theorem guards_selection (c : Config) (d : Shared) (id : Nat) (name : String) :
    Guards c d { id, name, selection := d.selection } := by
  refine ⟨d.selectRegion, BusSwitch.controlLayout d.masters.size, _, rfl, rfl, rfl,
    fun {b} reach => ⟨reach.holds_selection d, ?_⟩⟩
  exact BusSwitch.lt_two_pow_selectionWidth (reach.owner_lt d)

/-- A register that the supervisor's manifest resolves lies in a region of the supervisor's map. -/
theorem Reachable.mem_regions_of_resolve (reach : Reachable c b) {name register : String} {ref : RegisterRef}
    (resolved : RegisterRef.resolve (b.manifest .supervisor) name register = .ok ref) :
    ∃ region ∈ (b.map .supervisor).regions, region.name = name := by
  unfold RegisterRef.resolve at resolved
  split at resolved
  · cases resolved
  · next addr reg found =>
    obtain ⟨r, lists, -⟩ := Manifest.register?_eq_some_iff.1 found
    have listed := (AddressMap.perm_manifest_entries (reach.arranged .supervisor)).mem_iff.1 lists.mem_regions
    obtain ⟨region, present, entry⟩ := List.mem_map.1 listed
    exact ⟨region, present, congrArg Prod.fst entry⟩

/-- Whatever arbiter the supervisor's manifest leads to, it is that of a shared device. -/
theorem Reachable.guards_of_ofManifest (reach : Reachable c b) {id : Nat} {name : String}
    {arbiter : Arbiter} (named : Arbiter.ofManifest id (b.manifest .supervisor) name = .ok arbiter) :
    ∃ d, Guards c d arbiter := by
  cases resolved : RegisterRef.resolve (b.manifest .supervisor) s!"{name}_pi" "master_select" with
  | error e =>
    rw [Arbiter.ofManifest, resolved] at named
    cases named
  | ok selection =>
    rw [Arbiter.ofManifest, resolved] at named
    obtain rfl : Arbiter.mk id name selection = arbiter := Except.ok.inj named
    obtain ⟨region, present, regionName⟩ := reach.mem_regions_of_resolve resolved
    obtain ⟨d, rfl⟩ := selectRegion_of_name (reach.mem_map.1 present) regionName
    have leads : RegisterRef.resolve (b.manifest .supervisor) s!"{name}_pi" "master_select" =
        .ok d.selection := by
      rw [← regionName]
      exact reach.resolve_register (reach.holds_selection d)
    obtain rfl : d.selection = selection := Except.ok.inj (leads.symm.trans resolved)
    exact ⟨d, guards_selection c d id name⟩

/-! ## Grants -/

/-- A grant that was obtained on a board of the configuration, from an arbiter of the supervisor's manifest or
in the stead of another grant, whenever that was. -/
inductive Obtained (c : Config) : Grant → Prop
  | acquired {b : Board} {id : Nat} {name : String} {arbiter : Arbiter} {master : Nat} {v : View} {g : Grant}
    {l : Link View} :
    Reachable c b → Arbiter.ofManifest id (b.manifest .supervisor) name = .ok arbiter →
    v.side = .supervisor → Reachable c v.board →
    (arbiter.acquire master).perform (.connect v) = (.ok g, l) → Obtained c g
  | handedOff {v : View} {g handed : Grant} {master : Nat} {l : Link View} :
    Obtained c g → v.side = .supervisor → Reachable c v.board →
    (g.handOff master).perform (.connect v) = (.ok handed, l) → Obtained c handed

/-- An arbiter grants a device to one of its masters. -/
theorem Guards.lt_masters_of_acquire {arbiter : Arbiter} (guards : Guards c d arbiter)
    (supervised : v.side = .supervisor) (reach : Reachable c v.board) {master : Nat} {l : Link View}
    (acquires : (arbiter.acquire master).perform (.connect v) = (.ok g, l)) :
    g.arbiter = arbiter ∧ g.master < d.masters.size := by
  have sets := RegisterRef.keeps_set (writesKeep_reachable c arbiter.selection.addr) (BitVec.ofNat 32 master)
  have reads := (Supervises.fronts c fun _ => True).meets_owner (readsKeep_reachable c) guards
  have connects := Arbiter.meets_connect (Action.keeps_iff_meets.1 sets).ignoring_errors reads.unfailing
    (fun _ _ _ _ => trivial) fun _ _ _ _ _ => trivial
  have on : On c (fun _ => True) v := ⟨supervised, reach, trivial⟩
  obtain ⟨-, issued, left, owned⟩ := connects.locked.ok (Link.live_connect on) acquires
  rw [issued]
  exact ⟨rfl, owned ▸ left.reach.owner_lt d⟩

/-- A grant is for one of the masters of the device that its arbiter is in front of. -/
theorem Obtained.guards (obtained : Obtained c g) :
    ∃ d : Shared, Guards c d g.arbiter ∧ g.master < d.masters.size := by
  induction obtained with
  | acquired reach named supervised current acquires =>
    obtain ⟨d, guards⟩ := reach.guards_of_ofManifest named
    obtain ⟨same, few⟩ := guards.lt_masters_of_acquire supervised current acquires
    exact ⟨d, same.symm ▸ guards, few⟩
  | handedOff _ supervised current acquires ih =>
    obtain ⟨d, guards, -⟩ := ih
    obtain ⟨same, few⟩ := guards.lt_masters_of_acquire supervised current acquires
    exact ⟨d, same.symm ▸ guards, few⟩

end InstrumentBus.Board
