import InstrumentBus.Proofs.Board.Ownership

/-!
# What the co-processor cannot do

The co-processor reaches the devices that it shares and the control loop's parameters, and nothing
else. `SupervisedAs` joins what its accesses leave to the supervisor: the selections, the player with
the sample RAM, the control and debug registers of the core, the command block and the parameters
that the supervisor owns. `coprocessor_is_confined` says that an access of the co-processor does to
these what a step of the board does, and that only a write of the supervisor to the word in front of
a device moves the device from one master to another.
-/

namespace InstrumentBus.Board

variable {c : Config} {b : Board}

/-! ## Moving a connection takes a write to the selection -/

/-- The block that moves the connection of a shared device. -/
def Shared.selectBlock : Shared → Block
  | .dac0 => .dac0Select
  | .adc0 => .adc0Select
  | .wf0Ram => .wf0RamSelect
  | .pico0Ram => .pico0RamSelect

/-- A write of the supervisor to the word that selects the master of a shared device. -/
def Event.Selects (b : Board) (d : Shared) (e : Event) : Prop :=
  ∃ op, e = .access .supervisor op ∧ op.isWrite = true ∧ op.Aligned ∧
    ∃ region ∈ (b.map .supervisor).regions,
      region.name = d.name ++ "_pi" ∧ op.addr.wordBase = region.origin

/-- A transaction of the supervisor moves the connection of a device only by a write to its
selection. -/
theorem owner_supervisorTransact (b : Board) {block : Block} {req : Request} {d : Shared}
    (beside : block = d.selectBlock → ∀ data lanes, req ≠ .write 0 data lanes) :
    (b.supervisorTransact block req).2.owner d = b.owner d := by
  cases block with
  | dac0 =>
    cases d with
    | dac0 => exact BusSwitch.active_transact b.dac0 supervisorMaster req
    | _ => rfl
  | adc0 =>
    cases d with
    | adc0 => exact BusSwitch.active_transact b.adc0 supervisorMaster req
    | _ => rfl
  | wf0Ram =>
    cases d with
    | wf0Ram => exact BusSwitch.active_transact b.wf0Ram supervisorMaster req
    | _ => rfl
  | pico0Ram =>
    cases d with
    | pico0Ram => exact BusSwitch.active_transact b.pico0Ram supervisorMaster req
    | _ => rfl
  | dac0Select =>
    cases d with
    | dac0 => exact congrArg BusSwitch.active (b.dac0.transactControl_of_beside (beside rfl))
    | _ => rfl
  | adc0Select =>
    cases d with
    | adc0 => exact congrArg BusSwitch.active (b.adc0.transactControl_of_beside (beside rfl))
    | _ => rfl
  | wf0RamSelect =>
    cases d with
    | wf0Ram => exact congrArg BusSwitch.active (b.wf0Ram.transactControl_of_beside (beside rfl))
    | _ => rfl
  | pico0RamSelect =>
    cases d with
    | pico0Ram => exact congrArg BusSwitch.active (b.pico0Ram.transactControl_of_beside (beside rfl))
    | _ => rfl
  | wf0 => cases d <;> rfl
  | pico0 => cases d <;> rfl
  | pico0Regs => cases d <;> rfl
  | clParams => cases d <;> rfl
  | cl => cases d <;> rfl

/-! ## Transactions of the co-processor -/

/-- Two boards agree on everything that only the supervisor commands. -/
structure SupervisedAs (a b : Board) : Prop where
  owner : ∀ d, b.owner d = a.owner d
  wf0 : b.wf0 = a.wf0
  wf0Ram : b.wf0Ram = a.wf0Ram
  pico0 : b.pico0 = a.pico0
  cl : b.cl = a.cl
  params : ∀ i f, paramsLayout.fields[i]? = some f → f.access = .ownedBy .supervisor →
    b.clParams.value i = a.clParams.value i

theorem SupervisedAs.coprocessorTransact? {block : Block} {req : Request}
    {answered : Response × Board} (result : b.coprocessorTransact? block req = some answered) :
    SupervisedAs b answered.2 := by
  cases block with
  | dac0 =>
    cases result
    refine ⟨fun d => ?_, rfl, rfl, rfl, rfl, fun _ _ _ _ => rfl⟩
    cases d with
    | dac0 => exact BusSwitch.active_transact b.dac0 coprocessorMaster req
    | _ => rfl
  | adc0 =>
    cases result
    refine ⟨fun d => ?_, rfl, rfl, rfl, rfl, fun _ _ _ _ => rfl⟩
    cases d with
    | adc0 => exact BusSwitch.active_transact b.adc0 coprocessorMaster req
    | _ => rfl
  | pico0Ram =>
    cases result
    refine ⟨fun d => ?_, rfl, rfl, rfl, rfl, fun _ _ _ _ => rfl⟩
    cases d with
    | pico0Ram => exact BusSwitch.active_transact b.pico0Ram coprocessorMaster req
    | _ => rfl
  | clParams =>
    cases result
    refine ⟨fun d => ?_, rfl, rfl, rfl, rfl, fun i f found supervised => ?_⟩
    · cases d <;> rfl
    · have refused : f.access.writableBy .coprocessor = false := by
        rw [supervised]
        rfl
      exact b.clParams.value_transactFrom_of_not_writableBy found refused req
  | _ => cases result

/-- An access of the co-processor fails and leaves the board as it is, or leaves to the supervisor
what a step of the board leaves. -/
theorem Reachable.coprocessor_cases (reach : Reachable c b) (op : Op) :
    ((∃ fault, (b.perform .coprocessor op).1 = .error fault) ∧ (b.perform .coprocessor op).2 = b) ∨
    ((∃ w, (b.perform .coprocessor op).1 = .ok w) ∧
      SupervisedAs b.tick (b.perform .coprocessor op).2) := by
  rcases reach.perform_answers .coprocessor op with fails | ⟨-, region, -, -, answered, result, outcome⟩
  · exact .inl fails
  · rw [outcome]
    exact .inr ⟨⟨_, rfl⟩, .coprocessorTransact? result⟩

/-! ## Events -/

/-- A relocated request that writes a word comes from an access that writes. -/
theorem Op.isWrite_of_request {op : Op} {place addr : Addr} {data : Word} {lanes : Lanes}
    (writes : op.request.relocate place = .write addr data lanes) :
    op.isWrite = true ∧ place = addr := by
  cases op with
  | readWord a => cases writes
  | writeWord a w => cases writes; exact ⟨rfl, rfl⟩
  | readByte a => cases writes
  | writeByte a v => cases writes; exact ⟨rfl, rfl⟩

/-- A block sees a write where the region of the block lies and as far into it as the write says. -/
theorem Reachable.wordBase_of_write (reach : Reachable c b) {side : Side}
    {region : AddressMap.Region Block} (present : region ∈ (b.map side).regions) {op : Op}
    (inside : op.addr.wordBase ∈ region) {addr : Addr} {data : Word} {lanes : Lanes}
    (writes : op.request.relocate (region.offsetOf op.addr.wordBase) = .write addr data lanes) :
    op.isWrite = true ∧ op.addr.wordBase = region.origin + addr := by
  obtain ⟨isWrite, place⟩ := Op.isWrite_of_request writes
  rw [AddressMap.Region.offsetOf_eq_sub ((reach.arranged side).placed present) inside] at place
  exact ⟨isWrite, (BitVec.sub_eq_iff_eq_add.1 place).trans (BitVec.add_comm _ _)⟩

/-- The region of a selection is called after its device. -/
theorem name_of_selectBlock {region : AddressMap.Region Block} {d : Shared}
    (present : region ∈ regionsOf c .supervisor) (selects : region.owner = d.selectBlock) :
    region.name = d.name ++ "_pi" := by
  have usual : ∀ r ∈ regionsOf .standard .supervisor,
      r.owner = d.selectBlock → r.name = d.name ++ "_pi" := by
    cases d <;> decide
  exact regionsOf_of_standard (P := fun name owner => owner = d.selectBlock → name = d.name ++ "_pi")
    usual present selects

/-- An access of the supervisor moves the connection of a device only if it selects its master. -/
theorem Reachable.selects_of_owner_ne (reach : Reachable c b) {op : Op} {d : Shared}
    (moved : (b.perform .supervisor op).2.owner d ≠ b.owner d) :
    Event.Selects b d (.access .supervisor op) := by
  rcases reach.perform_answers .supervisor op with
    ⟨-, same⟩ | ⟨aligned, region, present, inside, answered, result, outcome⟩
  · rw [same] at moved
    exact (moved rfl).elim
  · cases result
    rw [outcome] at moved
    by_cases reached : region.owner = d.selectBlock ∧ ∃ data lanes,
        op.request.relocate (region.offsetOf op.addr.wordBase) = .write 0 data lanes
    · obtain ⟨selects, data, lanes, writes⟩ := reached
      obtain ⟨isWrite, first⟩ := reach.wordBase_of_write present inside writes
      have atOrigin : op.addr.wordBase = region.origin := first.trans (BitVec.add_zero _)
      exact ⟨op, rfl, isWrite, aligned, region, present,
        name_of_selectBlock (reach.mem_map.1 present) selects, atOrigin⟩
    · refine (moved ?_).elim
      rw [← owner_tick b d]
      exact owner_supervisorTransact b.tick fun selects data lanes writes =>
        reached ⟨selects, data, lanes, writes⟩

/-- The connection of a device moves in an event only if the event selects its master. -/
theorem Reachable.step_selects (reach : Reachable c b) {e : Event} {d : Shared}
    (moved : (b.step e).owner d ≠ b.owner d) : e.Selects b d := by
  cases e with
  | tick => exact (moved (owner_tick b d)).elim
  | access side op =>
    cases side with
    | supervisor => exact reach.selects_of_owner_ne moved
    | coprocessor =>
      have kept : (b.perform .coprocessor op).2.owner d = b.owner d := by
        rcases reach.coprocessor_cases op with ⟨-, same⟩ | ⟨-, supervised⟩
        · rw [same]
        · rw [supervised.owner d, owner_tick]
      exact (moved kept).elim
  | sample raw =>
    refine (moved ?_).elim
    cases d <;> rfl
  | core activity =>
    refine (moved ?_).elim
    cases d <;> rfl

/-- The co-processor cannot do what the supervisor is for. An access of it that succeeds leaves the
selections, the player, the sample RAM, its own control and debug registers, the command block and the
supervisor's parameters as a step of the board leaves them, and one that fails leaves the board as it
is. So along a run a device gets another owner only by a write of the supervisor to the word in front
of that device. -/
theorem coprocessor_is_confined (reach : Reachable c b) :
    (∀ op,
      ((∃ fault, (b.perform .coprocessor op).1 = .error fault) ∧
        (b.perform .coprocessor op).2 = b) ∨
      ((∃ w, (b.perform .coprocessor op).1 = .ok w) ∧
        SupervisedAs b.tick (b.perform .coprocessor op).2)) ∧
    (∀ (events : List Event) (e : Event) (d : Shared),
      ((b.run events).step e).owner d ≠ (b.run events).owner d → e.Selects (b.run events) d) :=
  ⟨reach.coprocessor_cases, fun events _ _ moved => (reach.run events).step_selects moved⟩

/-- On the usual board at reset, the co-processor may write a parameter's word, but only the
supervisor hands the DAC over. -/
theorem supervisor_hands_dac_over : ∃ b, Reachable .standard b ∧
    SupervisedAs b.tick (b.perform .coprocessor (.writeWord 0x100000 9)).2 ∧
    Event.Selects b .dac0 (.access .supervisor (.writeWord 0x2200 1)) := by
  obtain ⟨b, assembled⟩ := assemble_standard
  have reach : Reachable .standard b := .assembled assembled
  obtain ⟨accesses, moves⟩ := coprocessor_is_confined reach
  refine ⟨b, reach, ?_, moves [] _ .dac0 ?_⟩
  · have present : .ofLayout "cl_params" 0x100000 paramsLayout .clParams ∈
        (b.map .coprocessor).regions := by
      rw [reach.mem_map]
      simp [regionsOf, coprocessorRegions]
    obtain ⟨answered, -, outcome⟩ :=
      reach.perform_of_mem (.writeWord 0x100000 9) present (by decide) (by decide)
    rcases accesses (.writeWord 0x100000 9) with ⟨⟨fault, failed⟩, -⟩ | ⟨-, supervised⟩
    · rw [outcome] at failed
      cases failed
    · exact supervised
  · have present : .ofLayout "dac0_pi" 0x2200 (BusSwitch.controlLayout dac0Masters.size)
        .dac0Select ∈ (b.map .supervisor).regions := by
      rw [reach.mem_map]
      simp [regionsOf, supervisorRegions]
    obtain ⟨answered, result, outcome⟩ :=
      reach.perform_of_mem (.writeWord 0x2200 1) present (by decide) (by decide)
    obtain ⟨supervisorMap, coprocessorMap, -, -, -, rfl⟩ := assemble_eq_ok_iff.1 assembled
    cases result
    let b := atReset .standard supervisorMap coprocessorMap
    have idle : b.tick.dac0 = b.dac0.tick := dac0_tick_of_ne_owner (show 0 ≠ 2 by decide)
    have current : b.dac0.tick.active < b.dac0.tick.count := Nat.succ_pos 2
    have handed : (b.tick.dac0.transactControl (.writeWord 0 1)).2.active = 1 := by
      rw [idle, BusSwitch.active_transactControl current]
      rfl
    show (b.perform .supervisor (.writeWord 0x2200 1)).2.owner .dac0 ≠ 0
    rw [outcome]
    show (b.tick.dac0.transactControl (.writeWord 0 1)).2.active ≠ 0
    rw [handed]
    decide

end InstrumentBus.Board
