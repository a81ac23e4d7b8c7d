import InstrumentBus.Driver.Core
import InstrumentBus.Proofs.Board.Core

/-!
# The driver of the core on a board

The supervisor's manifest leads to one driver of the core (`Reachable.ofManifest_core`), whose references are to the
control registers of the core, to its general purpose registers, to its RAM and to the selection in front of it.
-/

namespace InstrumentBus.Board

variable {c : Config} {b : Board} {i : Nat} {f : Field}

/-! ## The driver -/

/-- The control region of the core. -/
def coreRegion : AddressMap.Region Block :=
  .ofLayout "pico0" 0x5000 Coprocessor.controlLayout .pico0

/-- The region of the core's general purpose registers. -/
def coreRegistersRegion : AddressMap.Region Block :=
  .ofLayout "pico0_regs" 0x5100 Coprocessor.debugLayout .pico0Regs

/-- The region of the core's RAM, as the supervisor sees it. -/
def programRegion (c : Config) : AddressMap.Region Block :=
  .plain "pico0_ram" 0x6000 c.ramBytes .pico0Ram

theorem Reachable.holds_core (reach : Reachable c b) (found : Coprocessor.controlLayout.fields[i]? = some f) :
    AddressMap.HoldsRegister (b.map .supervisor) coreRegion Coprocessor.controlLayout i f := by
  refine ⟨?_, rfl, found⟩
  rw [reach.mem_map]
  simp [coreRegion, regionsOf, supervisorRegions]

/-- A general purpose register, `x1` in the first place. -/
def coreRegister (i : Nat) : Field :=
  ⟨Coprocessor.registerName (i + 1), 32, .readOnly⟩

theorem Reachable.holds_coreRegister (reach : Reachable c b) (few : i < Coprocessor.registerCount) :
    AddressMap.HoldsRegister (b.map .supervisor) coreRegistersRegion Coprocessor.debugLayout i
      (coreRegister i) := by
  refine ⟨?_, rfl, ?_⟩
  · rw [reach.mem_map]
    simp [coreRegistersRegion, regionsOf, supervisorRegions]
  · rw [Coprocessor.debugLayout, Array.getElem?_ofFn, dif_pos few]
    rfl

theorem Reachable.mem_programRegion (reach : Reachable c b) :
    programRegion c ∈ (b.map .supervisor).regions := by
  rw [reach.mem_map]
  simp [programRegion, regionsOf, supervisorRegions]

/-- The driver of the core. -/
def coreDriver (c : Config) (id : Nat) : CoreDriver :=
  { name := "pico0"
    ram := Shared.pico0Ram.arbiter id
    ramOrigin := 0x6000
    ramSize := c.ramBytes.toNat
    coreMaster := coprocessorMaster
    enableBit := refOf coreRegion Coprocessor.enable ⟨"enable", 1, .readWrite⟩
    trap := refOf coreRegion Coprocessor.trap ⟨"trap", 8, .readOnly⟩
    busAddress := refOf coreRegion Coprocessor.busAddress ⟨"d_adr", 32, .readOnly⟩
    busData := refOf coreRegion Coprocessor.busData ⟨"d_dat_w", 32, .readOnly⟩
    programCounter := refOf coreRegion Coprocessor.programCounter ⟨"dbg_insn_addr", 32, .readOnly⟩
    opcode := refOf coreRegion Coprocessor.opcode ⟨"dbg_insn_opcode", 32, .readOnly⟩
    registers := (List.range Coprocessor.registerCount).map fun i =>
      refOf coreRegistersRegion i (coreRegister i) }

/-- What succeeds for each of a list succeeds for the list. -/
theorem mapM_eq_ok {α β ε : Type} {find : α → Except ε β} {result : α → β} {l : List α}
    (each : ∀ a ∈ l, find a = .ok (result a)) : l.mapM find = .ok (l.map result) := by
  induction l with
  | nil => rfl
  | cons a l ih =>
    rw [List.mapM_cons, each a (.head _), ih fun later listed => each later (.tail _ listed)]
    rfl

/-- The supervisor's manifest leads to the driver of the core. -/
theorem Reachable.ofManifest_core (reach : Reachable c b) (id : Nat) :
    CoreDriver.ofManifest id (b.manifest .supervisor) "pico0" coprocessorMaster = .ok (coreDriver c id) := by
  have ram : (b.manifest .supervisor).region? "pico0_ram" = some (programRegion c).entry :=
    AddressMap.manifest_region? (reach.arranged .supervisor) reach.mem_programRegion
  have bounds : (b.manifest .supervisor).bounds "pico0_ram" = .ok (0x6000, c.ramBytes) := by
    rw [Manifest.bounds, ram]
    rfl
  have registers : (List.range Coprocessor.registerCount).mapM (fun i =>
      RegisterRef.resolve (b.manifest .supervisor) "pico0_regs" (Coprocessor.registerName (i + 1))) =
        .ok (coreDriver c id).registers :=
    mapM_eq_ok fun i listed => reach.resolve_register (reach.holds_coreRegister (List.mem_range.1 listed))
  have arbiter : Arbiter.ofManifest id (b.manifest .supervisor) "pico0_ram" = .ok (coreDriver c id).ram :=
    reach.ofManifest_shared .pico0Ram id
  have register {i : Nat} {name : String} {width : Nat} {access : Access}
      (found : Coprocessor.controlLayout.fields[i]? = some ⟨name, width, access⟩) :
      RegisterRef.resolve (b.manifest .supervisor) "pico0" name =
        .ok (refOf coreRegion i ⟨name, width, access⟩) :=
    reach.resolve_register (reach.holds_core found)
  have named (name : String) (same : name = "pico0") :
      s!"{name}_ram" = "pico0_ram" ∧ s!"{name}_regs" = "pico0_regs" := by
    subst same
    decide
  obtain ⟨ramName, registersName⟩ := named "pico0" rfl
  simp only [CoreDriver.ofManifest, ramName, registersName, bounds, registers, arbiter,
    register (i := Coprocessor.enable) rfl, register (i := Coprocessor.trap) rfl,
    register (i := Coprocessor.busAddress) rfl, register (i := Coprocessor.busData) rfl,
    register (i := Coprocessor.programCounter) rfl, register (i := Coprocessor.opcode) rfl]
  rfl

end InstrumentBus.Board
