import InstrumentBus.Proofs.Board.Reach
import InstrumentBus.Proofs.RegisterFile.Transaction

/-!
# How an access can fail

Every block acknowledges whatever it is asked, and every block that the co-processor's map leads to
answers the co-processor. So an access fails only before the board moves: its address does not suit
its size, or no region contains its word. `perform_cases` lists the three outcomes of an access, and
`access_faults` says when each fault is raised and what it leaves behind. What a step of the board and
the transactions of its blocks keep therefore outlasts every event (`Reachable.invariant`).
-/

namespace InstrumentBus

/-! ## Every block acknowledges -/

/-- A target that acknowledges whatever it is asked. -/
def Target.Acknowledges (σ : Type) [Target σ] : Prop :=
  ∀ (s : σ) (req : Request), (Target.transact s req).1.ack = true

theorem Ram.acknowledges : Target.Acknowledges Ram := by
  intro r req
  cases req <;> rfl

theorem Spi.Controller.acknowledges (δ : Type) : Target.Acknowledges (Spi.Controller δ) :=
  fun c req => c.registers.transactFrom_ack .supervisor req

theorem Waveform.Player.acknowledges : Target.Acknowledges Waveform.Player :=
  fun p req => p.registers.transactFrom_ack .supervisor req

theorem ControlLoop.Engine.acknowledges : Target.Acknowledges ControlLoop.Engine :=
  fun e req => e.registers.transactFrom_ack .supervisor req

namespace BusSwitch

variable {σ : Type}

/-- A switch acknowledges every master, since the idle bus acknowledges too. -/
theorem transact_ack [Target σ] (device : Target.Acknowledges σ) (s : BusSwitch σ) (master : Nat)
    (req : Request) : (s.transact master req).1.ack = true := by
  unfold transact
  split
  · exact device _ _
  · rfl

theorem transactRegisters_ack (s : BusSwitch σ) (req : Request) :
    (s.transactRegisters req).1.ack = true := by
  show (s.control.transactFrom .supervisor req).1.ack = true
  exact s.control.transactFrom_ack .supervisor req

theorem transactControl_ack (s : BusSwitch σ) (req : Request) :
    (s.transactControl req).1.ack = true := by
  cases req with
  | read addr => exact transactRegisters_ack s _
  | write addr data lanes =>
    unfold transactControl
    dsimp only
    split
    · rfl
    · exact transactRegisters_ack s _

end BusSwitch

namespace Board

variable {c : Config} {b : Board}

theorem supervisorTransact_ack (b : Board) (block : Block) (req : Request) :
    (b.supervisorTransact block req).1.ack = true := by
  cases block with
  | dac0 => exact BusSwitch.transact_ack (Spi.Controller.acknowledges _) _ _ _
  | adc0 => exact BusSwitch.transact_ack (Spi.Controller.acknowledges _) _ _ _
  | dac0Select => exact BusSwitch.transactControl_ack _ _
  | adc0Select => exact BusSwitch.transactControl_ack _ _
  | wf0RamSelect => exact BusSwitch.transactControl_ack _ _
  | pico0RamSelect => exact BusSwitch.transactControl_ack _ _
  | wf0 => exact Waveform.Player.acknowledges _ _
  | wf0Ram => exact BusSwitch.transact_ack Ram.acknowledges _ _ _
  | pico0 => exact RegisterFile.transactFrom_ack _ _ _
  | pico0Regs => exact RegisterFile.transactFrom_ack _ _ _
  | pico0Ram => exact BusSwitch.transact_ack Ram.acknowledges _ _ _
  | clParams => exact RegisterFile.transactFrom_ack _ _ _
  | cl => exact ControlLoop.Engine.acknowledges _ _

theorem coprocessorTransact?_ack {block : Block} {req : Request} {answered : Response × Board}
    (result : b.coprocessorTransact? block req = some answered) : answered.1.ack = true := by
  cases block with
  | dac0 => cases result; exact BusSwitch.transact_ack (Spi.Controller.acknowledges _) _ _ _
  | adc0 => cases result; exact BusSwitch.transact_ack (Spi.Controller.acknowledges _) _ _ _
  | pico0Ram => cases result; exact BusSwitch.transact_ack Ram.acknowledges _ _ _
  | clParams => cases result; exact RegisterFile.transactFrom_ack _ _ _
  | _ => cases result

/-! ## Every region answers -/

/-- The blocks on the co-processor's bus. -/
theorem coprocessorRegions_owner {region : AddressMap.Region Block}
    (present : region ∈ regionsOf c .coprocessor) :
    region.owner = .pico0Ram ∨ region.owner = .dac0 ∨ region.owner = .adc0 ∨
      region.owner = .clParams :=
  regionsOf_of_standard
    (P := fun _ owner => owner = .pico0Ram ∨ owner = .dac0 ∨ owner = .adc0 ∨ owner = .clParams)
    (by decide) present

/-- The block of a region answers the processor that sees the region, at any time. -/
theorem Reachable.transact?_acknowledges (reach : Reachable c b) {side : Side}
    {region : AddressMap.Region Block} (present : region ∈ (b.map side).regions) (now : Board)
    (req : Request) :
    ∃ answered, now.transact? side region.owner req = some answered ∧ answered.1.ack = true := by
  cases side with
  | supervisor => exact ⟨_, rfl, supervisorTransact_ack now region.owner req⟩
  | coprocessor =>
    have answers (block : Block) {answered : Response × Board}
        (result : now.coprocessorTransact? block req = some answered) :
        ∃ answered, now.transact? .coprocessor block req = some answered ∧
          answered.1.ack = true :=
      ⟨answered, result, coprocessorTransact?_ack result⟩
    rcases coprocessorRegions_owner (reach.mem_map.1 present) with owner | owner | owner | owner
    · rw [owner]; exact answers .pico0Ram rfl
    · rw [owner]; exact answers .dac0 rfl
    · rw [owner]; exact answers .adc0 rfl
    · rw [owner]; exact answers .clParams rfl

/-! ## The outcomes of an access -/

/-- An access outside every region fails before anything happens. -/
theorem Reachable.perform_of_outside (reach : Reachable c b) (side : Side) {op : Op}
    (aligned : op.Aligned)
    (outside : ∀ region ∈ (b.map side).regions, op.addr.wordBase ∉ region) :
    b.perform side op = (.error (.unmapped op.addr.wordBase), b) := by
  rw [perform_of_aligned b side aligned]
  rcases access_cases b side op.request with ⟨-, outcome⟩ | ⟨region, decoded, -⟩
  · rw [outcome, Op.request_addr]
    rfl
  · rw [Op.request_addr] at decoded
    obtain ⟨present, inside⟩ := reach.decode?_eq_some_iff.1 decoded
    exact (outside region present inside).elim

/-- An access inside a region reaches the block of that region, after one step of the board, and
succeeds. -/
theorem Reachable.perform_of_mem (reach : Reachable c b) {side : Side} (op : Op)
    {region : AddressMap.Region Block} (present : region ∈ (b.map side).regions)
    (inside : op.addr.wordBase ∈ region) (aligned : op.Aligned) :
    ∃ answered,
      b.tick.transact? side region.owner
        (op.request.relocate (region.offsetOf op.addr.wordBase)) = some answered ∧
      b.perform side op = (.ok (op.result answered.1.data), answered.2) := by
  have decoded := reach.decode?_eq_some_iff.2 ⟨present, inside⟩
  obtain ⟨answered, result, acknowledged⟩ := reach.transact?_acknowledges present b.tick
    (op.request.relocate (region.offsetOf op.addr.wordBase))
  refine ⟨answered, result, ?_⟩
  rw [perform_of_aligned b side aligned]
  have outcomes := access_cases b side op.request
  rw [Op.request_addr, decoded] at outcomes
  rcases outcomes with ⟨undecoded, -⟩ | ⟨other, same, answer⟩
  · cases undecoded
  · cases same
    rcases answer with ⟨refused, -⟩ | ⟨again, sameAgain, outcome⟩
    · rw [result] at refused
      cases refused
    · rw [result] at sameAgain
      cases sameAgain
      rw [outcome, acknowledged]
      rfl

/-- The three outcomes of an access. -/
theorem Reachable.perform_cases (reach : Reachable c b) (side : Side) (op : Op) :
    (¬op.Aligned ∧ b.perform side op = (.error (.misaligned op.addr), b)) ∨
    (op.Aligned ∧ (∀ region ∈ (b.map side).regions, op.addr.wordBase ∉ region) ∧
      b.perform side op = (.error (.unmapped op.addr.wordBase), b)) ∨
    (op.Aligned ∧ ∃ region ∈ (b.map side).regions, op.addr.wordBase ∈ region ∧ ∃ answered,
      b.tick.transact? side region.owner
        (op.request.relocate (region.offsetOf op.addr.wordBase)) = some answered ∧
      b.perform side op = (.ok (op.result answered.1.data), answered.2)) := by
  by_cases aligned : op.Aligned
  · refine .inr ?_
    by_cases mapped : ∃ region ∈ (b.map side).regions, op.addr.wordBase ∈ region
    · obtain ⟨region, present, inside⟩ := mapped
      exact .inr ⟨aligned, region, present, inside,
        reach.perform_of_mem op present inside aligned⟩
    · have outside : ∀ region ∈ (b.map side).regions, op.addr.wordBase ∉ region :=
        fun region present inside => mapped ⟨region, present, inside⟩
      exact .inl ⟨aligned, outside, reach.perform_of_outside side aligned outside⟩
  · exact .inl ⟨aligned, perform_of_not_aligned b side aligned⟩

/-- An access fails and leaves the board as it is, or is the transaction of a region's block one step
of the board later. -/
theorem Reachable.perform_answers (reach : Reachable c b) (side : Side) (op : Op) :
    ((∃ fault, (b.perform side op).1 = .error fault) ∧ (b.perform side op).2 = b) ∨
    (op.Aligned ∧ ∃ region ∈ (b.map side).regions, op.addr.wordBase ∈ region ∧ ∃ answered,
      b.tick.transact? side region.owner
        (op.request.relocate (region.offsetOf op.addr.wordBase)) = some answered ∧
      b.perform side op = (.ok (op.result answered.1.data), answered.2)) := by
  rcases reach.perform_cases side op with ⟨-, outcome⟩ | ⟨-, -, outcome⟩ | answers
  · rw [outcome]
    exact .inl ⟨⟨_, rfl⟩, rfl⟩
  · rw [outcome]
    exact .inl ⟨⟨_, rfl⟩, rfl⟩
  · exact .inr answers

/-- What holds of an assembled board and is kept by a step of the board, by any transaction of a block,
by a new sample and by what the core does by itself holds of every board on the way. -/
@[elab_as_elim]
theorem Reachable.invariant {P : Board → Prop} (reach : Reachable c b)
    (assembled : ∀ {b}, assemble c = .ok b → P b) (tick : ∀ {b : Board}, P b → P b.tick)
    (transact : ∀ {b : Board}, P b → ∀ {side block req answered},
      b.transact? side block req = some answered → P answered.2)
    (sample : ∀ {b : Board} raw, P b → P (b.presentAdc raw))
    (core : ∀ {b : Board} activity, P b → P (b.withCore (·.act activity))) : P b := by
  induction reach with
  | assembled built => exact assembled built
  | @step b e reach ih =>
    cases e with
    | tick => exact tick ih
    | access side op =>
      show P (b.perform side op).2
      rcases reach.perform_answers side op with
        ⟨-, same⟩ | ⟨-, region, -, -, answered, result, outcome⟩
      · rwa [same]
      · rw [outcome]
        exact transact (tick ih) result
    | sample raw => exact sample raw ih
    | core activity => exact core activity ih

/-! ## When the board moves on -/

/-- Whether the board moves one step on in an event. -/
def moves (b : Board) : Event → Bool
  | .tick => true
  | .access side op => decide op.Aligned && ((b.map side).decode? op.addr.wordBase).isSome
  | _ => false

theorem moves_of_not_aligned (side : Side) {op : Op} (skewed : ¬op.Aligned) :
    b.moves (.access side op) = false := by
  simp [moves, skewed]

theorem Reachable.moves_of_outside (reach : Reachable c b) {side : Side} {op : Op}
    (outside : ∀ region ∈ (b.map side).regions, op.addr.wordBase ∉ region) :
    b.moves (.access side op) = false := by
  have undecoded : (b.map side).decode? op.addr.wordBase = none := by
    rw [Option.eq_none_iff_forall_ne_some]
    intro region decoded
    obtain ⟨present, inside⟩ := reach.decode?_eq_some_iff.1 decoded
    exact outside region present inside
  simp [moves, undecoded]

/-- The board moves on in an access that a region answers. -/
theorem Reachable.moves_of_mem (reach : Reachable c b) {side : Side} {op : Op}
    {region : AddressMap.Region Block} (aligned : op.Aligned) (present : region ∈ (b.map side).regions)
    (inside : op.addr.wordBase ∈ region) : b.moves (.access side op) = true := by
  have decoded := reach.decode?_eq_some_iff.2 ⟨present, inside⟩
  simp [moves, aligned, decoded]

/-! ## The faults -/

/-- An access raises one of two faults, and leaves the board as it is then: it is misaligned when it
moves a word and its address is no multiple of four, and otherwise unmapped when no region contains
its word. Every region answers and acknowledges, so any other access succeeds: the board moves one
step on, and the transaction follows. -/
theorem access_faults (reach : Reachable c b) (side : Side) (op : Op) :
    (∀ fault, (b.perform side op).1 = .error fault →
      (fault = .misaligned op.addr ∨ fault = .unmapped op.addr.wordBase) ∧
        (b.perform side op).2 = b) ∧
    ((b.perform side op).1 = .error (.misaligned op.addr) ↔
      op.isWord = true ∧ op.addr.toNat % 4 ≠ 0) ∧
    ((b.perform side op).1 = .error (.unmapped op.addr.wordBase) ↔
      ¬(op.isWord = true ∧ op.addr.toNat % 4 ≠ 0) ∧
        ∀ region ∈ (b.map side).regions, op.addr.wordBase ∉ region) ∧
    (∀ region ∈ (b.map side).regions, ∀ req, ∃ answered,
      b.tick.transact? side region.owner req = some answered ∧ answered.1.ack = true) ∧
    (∀ w, (b.perform side op).1 = .ok w →
      ∃ region ∈ (b.map side).regions, op.addr.wordBase ∈ region ∧ ∃ answered,
        b.tick.transact? side region.owner
          (op.request.relocate (region.offsetOf op.addr.wordBase)) = some answered ∧
        w = op.result answered.1.data ∧ (b.perform side op).2 = answered.2) := by
  have skewed : ¬op.Aligned ↔ op.isWord = true ∧ op.addr.toNat % 4 ≠ 0 := by
    simp [Op.Aligned, Addr.Aligned]
  rw [← skewed, Decidable.not_not]
  have answers (region) (present : region ∈ (b.map side).regions) (req : Request) :=
    reach.transact?_acknowledges present b.tick req
  rcases reach.perform_cases side op with
    ⟨misaligned, outcome⟩ | ⟨aligned, outside, outcome⟩ |
    ⟨aligned, region, present, inside, answered, result, outcome⟩
  · rw [outcome]
    refine ⟨?_, iff_of_true rfl misaligned, by simp [misaligned], answers, by simp⟩
    intro fault raised
    cases raised
    exact ⟨.inl rfl, rfl⟩
  · rw [outcome]
    refine ⟨?_, by simp [aligned], iff_of_true rfl ⟨aligned, outside⟩, answers, by simp⟩
    intro fault raised
    cases raised
    exact ⟨.inr rfl, rfl⟩
  · rw [outcome]
    refine ⟨by simp, by simp [aligned], ?_, answers, ?_⟩
    · simp only [reduceCtorEq, false_iff]
      rintro ⟨-, outside⟩
      exact outside region present inside
    · intro w returned
      cases returned
      exact ⟨region, present, inside, answered, result, rfl, rfl⟩

/-- The co-processor of the usual board cannot reach the selection in front of the DAC. -/
theorem coprocessor_misses_selection : ∃ b, Reachable .standard b ∧
    b.perform .coprocessor (.writeWord 0x2200 1) = (.error (.unmapped 0x2200), b) := by
  obtain ⟨b, assembled⟩ := assemble_standard
  have reach : Reachable .standard b := .assembled assembled
  obtain ⟨faults, -, unmapped, -, -⟩ := access_faults reach .coprocessor (.writeWord 0x2200 1)
  have apart : ∀ region ∈ coprocessorRegions .standard, (0x2200#32 : Addr) ∉ region := by decide
  have raised := unmapped.2 ⟨by decide, fun region present => apart region (reach.mem_map.1 present)⟩
  exact ⟨b, reach, Prod.ext raised (faults _ raised).2⟩

end Board

end InstrumentBus
