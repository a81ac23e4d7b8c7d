import InstrumentBus.Board.Access
import InstrumentBus.Proofs.AddressMap.Decode
import InstrumentBus.Proofs.Word.Mask

/-!
# Boards that can come about

A board is assembled from a configuration and changes by events: a tick, an access of one of the
processors, a number presented to the ADC, and what the core does by itself. `Reachable` is the
closure of assembly under events. The address maps are fixed at assembly: `Reachable.mem_map` lists
their regions, and `Reachable.decode?_eq_some_iff` says what an address decodes to.
-/

namespace InstrumentBus

/-! ## Accesses and events -/

/-- What happens to the registers that show the core, apart from its ticks: it traps, it writes to its
bus, a general purpose register changes, or a transaction reaches one of its two regions directly. -/
inductive Coprocessor.Activity where
  | trap (code : Word)
  | busWrite (addr data : Word)
  | register (n : Nat) (v : Word)
  | control (req : Request)
  | debug (req : Request)
deriving DecidableEq, Repr

/-- The co-processor after an activity of the core. -/
def Coprocessor.act (c : Coprocessor) : Coprocessor.Activity → Coprocessor
  | .trap code => c.latchTrap code
  | .busWrite addr data => c.latchBusWrite addr data
  | .register n v => c.setRegister n v
  | .control req => (c.transactControl req).2
  | .debug req => (c.transactDebug req).2

namespace Board

/-- An access of a processor to its bus. -/
inductive Op where
  | readWord (addr : Addr)
  | writeWord (addr : Addr) (w : Word)
  | readByte (addr : Addr)
  | writeByte (addr : Addr) (v : Byte)
deriving DecidableEq, Repr

namespace Op

/-- The address of an access. -/
def addr : Op → Addr
  | .readWord a => a
  | .writeWord a _ => a
  | .readByte a => a
  | .writeByte a _ => a

/-- Whether an access moves a whole word. -/
def isWord : Op → Bool
  | .readWord _ => true
  | .writeWord _ _ => true
  | _ => false

/-- Whether an access writes. -/
def isWrite : Op → Bool
  | .writeWord _ _ => true
  | .writeByte _ _ => true
  | _ => false

/-- Whether the address of an access suits its size. -/
def Aligned (op : Op) : Prop :=
  op.isWord = true → op.addr.Aligned

instance (op : Op) : Decidable op.Aligned :=
  inferInstanceAs (Decidable (op.isWord = true → op.addr.Aligned))

/-- The transaction that an access makes at the word of its address. -/
def request : Op → Request
  | .readWord a => .read a.wordBase
  | .writeWord a w => .writeWord a.wordBase w
  | .readByte a => .read a.wordBase
  | .writeByte a v => .write a.wordBase (Word.ofByteAt v a.byteIndex) a.lane

/-- What an access makes of the answer to its transaction, as a word; a write makes nothing of it. -/
def result : Op → Word → Word
  | .readWord _, w => w
  | .readByte a, w => (Word.byte w a.byteIndex).setWidth 32
  | _, _ => 0

@[simp]
theorem request_addr (op : Op) : op.request.addr = op.addr.wordBase := by
  cases op <;> rfl

/-- Whatever an access makes of its answer, it makes zero of zero. -/
theorem result_zero (op : Op) : op.result 0 = 0 := by
  cases op with
  | readByte a => simp [result, Word.byte]
  | _ => rfl

end Op

/-- The outcome of an access, with what a read delivers as a word and zero for a write. -/
def perform (b : Board) (side : Side) : Op → Except Fault Word × Board
  | .readWord a => b.readWord side a
  | .writeWord a w => (b.writeWord side a w).map (Except.map fun _ => 0) id
  | .readByte a => (b.readByte side a).map (Except.map fun v => v.setWidth 32) id
  | .writeByte a v => (b.writeByte side a v).map (Except.map fun _ => 0) id

/-- What can happen to a board: it moves on, a processor makes an access, a number is presented to the
ADC, or the core does something by itself. -/
inductive Event where
  | tick
  | access (side : Side) (op : Op)
  | sample (raw : Int)
  | core (activity : Coprocessor.Activity)
deriving DecidableEq, Repr

/-- The board after an event. -/
def step (b : Board) : Event → Board
  | .tick => b.tick
  | .access side op => (b.perform side op).2
  | .sample raw => b.presentAdc raw
  | .core activity => b.withCore (·.act activity)

/-- The board after several events. -/
def run (b : Board) (events : List Event) : Board :=
  events.foldl step b

/-- The boards that some events make of the board of a configuration. -/
inductive Reachable (c : Config) : Board → Prop
  | assembled {b : Board} : assemble c = .ok b → Reachable c b
  | step {b : Board} (e : Event) : Reachable c b → Reachable c (b.step e)

variable {c : Config} {b : Board}

theorem Reachable.run (reach : Reachable c b) (events : List Event) :
    Reachable c (b.run events) := by
  induction events generalizing b with
  | nil => exact reach
  | cons e rest ih => exact ih (.step e reach)

theorem Reachable.of_perform {side : Side} {op : Op} {outcome : Except Fault Word} {after : Board}
    (reach : Reachable c b) (performed : b.perform side op = (outcome, after)) : Reachable c after := by
  have left : b.step (.access side op) = after := congrArg Prod.snd performed
  exact left ▸ .step _ reach

/-! ## Accesses through one transaction -/

/-- An access to an address that does not suit its size fails before anything happens. -/
theorem perform_of_not_aligned (b : Board) (side : Side) {op : Op} (skewed : ¬op.Aligned) :
    b.perform side op = (.error (.misaligned op.addr), b) := by
  cases op with
  | readWord a =>
    have odd : ¬a.Aligned := fun even => skewed fun _ => even
    simp only [perform, readWord, if_neg odd, Op.addr]
  | writeWord a w =>
    have odd : ¬a.Aligned := fun even => skewed fun _ => even
    simp only [perform, writeWord, if_neg odd, Op.addr]
    rfl
  | readByte a => exact (skewed fun word => by cases word).elim
  | writeByte a v => exact (skewed fun word => by cases word).elim

/-- Any other access is one transaction at the word of its address. -/
theorem perform_of_aligned (b : Board) (side : Side) {op : Op} (aligned : op.Aligned) :
    b.perform side op = (b.access side op.request).map (Except.map op.result) id := by
  cases op with
  | readWord a =>
    have even : a.Aligned := aligned rfl
    simp only [perform, readWord, if_pos even, Op.request, Addr.wordBase_of_aligned even]
    generalize b.access side (.read a) = outcome
    rcases outcome with ⟨_ | _, _⟩ <;> rfl
  | writeWord a w =>
    have even : a.Aligned := aligned rfl
    simp only [perform, writeWord, if_pos even, Op.request, Addr.wordBase_of_aligned even]
    generalize b.access side (.writeWord a w) = outcome
    rcases outcome with ⟨_ | _, _⟩ <;> rfl
  | readByte a =>
    simp only [perform, readByte, Op.request]
    generalize b.access side (.read a.wordBase) = outcome
    rcases outcome with ⟨_ | _, _⟩ <;> rfl
  | writeByte a v =>
    simp only [perform, writeByte, Op.request]
    generalize b.access side _ = outcome
    rcases outcome with ⟨_ | _, _⟩ <;> rfl

/-- What a transaction on the bus of a processor comes to: nothing decodes the address and nothing
happens, or the board moves one step on, and the block of the region refuses or answers then. -/
theorem access_cases (b : Board) (side : Side) (req : Request) :
    ((b.map side).decode? req.addr = none ∧
      b.access side req = (.error (.unmapped req.addr), b)) ∨
    ∃ region, (b.map side).decode? req.addr = some region ∧
      ((b.tick.transact? side region.owner (req.relocate (region.offsetOf req.addr)) = none ∧
          b.access side req = (.error (.unmapped req.addr), b.tick)) ∨
        ∃ answered,
          b.tick.transact? side region.owner (req.relocate (region.offsetOf req.addr)) =
            some answered ∧
          b.access side req =
            (if answered.1.ack then .ok answered.1.data else .error (.noAck req.addr),
              answered.2)) := by
  unfold access
  cases decoded : (b.map side).decode? req.addr with
  | none => exact .inl ⟨rfl, rfl⟩
  | some region =>
    refine .inr ⟨region, rfl, ?_⟩
    dsimp only
    cases result : b.tick.transact? side region.owner (req.relocate (region.offsetOf req.addr)) with
    | none => exact .inl ⟨rfl, rfl⟩
    | some answered =>
      refine .inr ⟨answered, rfl, ?_⟩
      dsimp only
      split <;> rfl

/-! ## Assembly -/

/-- The regions that a processor sees. -/
def regionsOf (c : Config) : Side → List (AddressMap.Region Block)
  | .supervisor => supervisorRegions c
  | .coprocessor => coprocessorRegions c

/-- A configuration decides the widths and sizes of the regions, but not their names and blocks: what
holds of these on the usual board holds on every board. -/
theorem regionsOf_of_standard {side : Side} {P : String → Block → Prop}
    (usual : ∀ r ∈ regionsOf .standard side, P r.name r.owner)
    {r : AddressMap.Region Block} (present : r ∈ regionsOf c side) : P r.name r.owner := by
  have same : (regionsOf c side).map (fun r => (r.name, r.owner)) =
      (regionsOf .standard side).map (fun r => (r.name, r.owner)) := by
    cases side <;> rfl
  have listed : (r.name, r.owner) ∈ (regionsOf c side).map (fun r => (r.name, r.owner)) :=
    List.mem_map.2 ⟨r, present, rfl⟩
  rw [same] at listed
  obtain ⟨s, inStandard, agree⟩ := List.mem_map.1 listed
  obtain ⟨sameName, sameOwner⟩ := Prod.mk.inj agree
  rw [← sameName, ← sameOwner]
  exact usual s inStandard

/-- The board of a configuration at reset, with its address maps. -/
def atReset (c : Config) (supervisorMap coprocessorMap : AddressMap Block) : Board :=
  { dac0 := .reset dac0Masters (.reset .powerOn Ad5791.frameWidth c.spiCycles)
    adc0 := .reset adc0Masters (.reset (Spi.Sampler.powerOn c.adcBits) c.adcBits c.spiCycles)
    wf0 := .reset
    wf0Ram := .reset wf0RamMasters (.zero c.ramBytes.toNat)
    pico0 := .reset
    pico0Ram := .reset pico0RamMasters (.zero c.ramBytes.toNat)
    clParams := .zero _
    cl := .reset
    supervisorMap
    coprocessorMap }

/-- A board is assembled when a sample of the ADC fits a register and both maps can be drawn. -/
theorem assemble_eq_ok_iff : assemble c = .ok b ↔
    ∃ supervisorMap coprocessorMap, (0 < c.adcBits ∧ c.adcBits ≤ 32) ∧
      mapOf (regionsOf c .supervisor) = .ok supervisorMap ∧
      mapOf (regionsOf c .coprocessor) = .ok coprocessorMap ∧
      b = atReset c supervisorMap coprocessorMap := by
  unfold assemble Spi.Controller.build
  split
  · next width =>
    have outside : ¬(0 < c.adcBits ∧ c.adcBits ≤ 32) := by omega
    show Except.error (Error.layout (.badWidth "from_slave" c.adcBits)) = .ok b ↔ _
    simp [outside]
  · next width =>
    have inside : 0 < c.adcBits ∧ c.adcBits ≤ 32 := by omega
    show (mapOf (regionsOf c .supervisor) >>= fun supervisorMap =>
      mapOf (regionsOf c .coprocessor) >>= fun coprocessorMap =>
        Except.ok (atReset c supervisorMap coprocessorMap)) = .ok b ↔ _
    simp only [inside, and_self, true_and]
    cases mapOf (regionsOf c .supervisor) with
    | error e => simp [bind, Except.bind]
    | ok supervisorMap =>
      cases mapOf (regionsOf c .coprocessor) with
      | error e => simp [bind, Except.bind]
      | ok coprocessorMap => simp [bind, Except.bind, eq_comm]

/-- The usual board can be assembled. -/
theorem assemble_standard : ∃ b, assemble .standard = .ok b :=
  ⟨_, rfl⟩

/-- A map has the regions that it was drawn from, side by side. -/
theorem mapOf_eq_ok {regions : List (AddressMap.Region Block)} {m : AddressMap Block}
    (drawn : mapOf regions = .ok m) :
    (∀ r, r ∈ m.regions ↔ r ∈ regions) ∧ AddressMap.Arranged m.regions := by
  unfold mapOf at drawn
  split at drawn
  · next draft added =>
    cases drawn
    obtain ⟨arranged, rfl⟩ :=
      (AddressMap.Draft.addAll_eq_ok_iff AddressMap.Draft.arranged_empty).1 added
    have same := AddressMap.Draft.perm_build { regions := [] ++ regions }
    exact ⟨fun _ => same.mem_iff, arranged.perm same.symm⟩
  · cases drawn

/-! ## The maps of a reachable board -/

theorem tick_map (b : Board) (side : Side) : b.tick.map side = b.map side := by
  cases side <;> rfl

theorem transact?_map {requester : Side} {block : Block} {req : Request}
    {answered : Response × Board} (result : b.transact? requester block req = some answered)
    (side : Side) : answered.2.map side = b.map side := by
  cases requester with
  | supervisor => cases block <;> cases result <;> cases side <;> rfl
  | coprocessor =>
    cases block with
    | dac0 => cases result; cases side <;> rfl
    | adc0 => cases result; cases side <;> rfl
    | pico0Ram => cases result; cases side <;> rfl
    | clParams => cases result; cases side <;> rfl
    | _ => cases result

theorem access_map (b : Board) (requester : Side) (req : Request) (side : Side) :
    (b.access requester req).2.map side = b.map side := by
  rcases access_cases b requester req with
    ⟨-, outcome⟩ | ⟨region, -, ⟨-, outcome⟩ | ⟨answered, result, outcome⟩⟩
  · rw [outcome]
  · rw [outcome, tick_map]
  · rw [outcome, transact?_map result, tick_map]

/-- No event redraws a map. -/
theorem step_map (b : Board) (e : Event) (side : Side) : (b.step e).map side = b.map side := by
  cases e with
  | tick => exact tick_map b side
  | access requester op =>
    show (b.perform requester op).2.map side = b.map side
    by_cases aligned : op.Aligned
    · rw [perform_of_aligned b requester aligned]
      exact access_map b requester op.request side
    · rw [perform_of_not_aligned b requester aligned]
  | sample raw => cases side <;> rfl
  | core activity => cases side <;> rfl

theorem Reachable.map_drawn (reach : Reachable c b) (side : Side) :
    mapOf (regionsOf c side) = .ok (b.map side) := by
  induction reach with
  | assembled assembled =>
    obtain ⟨supervisorMap, coprocessorMap, -, supervisorDrawn, coprocessorDrawn, rfl⟩ :=
      assemble_eq_ok_iff.1 assembled
    cases side with
    | supervisor => exact supervisorDrawn
    | coprocessor => exact coprocessorDrawn
  | step e _ ih => rw [step_map, ih]

/-- The regions of a processor are listed in the order of their origins. -/
theorem sorted_regionsOf (c : Config) (side : Side) :
    (regionsOf c side).Pairwise fun r s => r.origin ≤ s.origin := by
  have origins : ((regionsOf c side).map AddressMap.Region.origin).Pairwise (· ≤ ·) := by
    cases side with
    | supervisor =>
      show [0x2000#32, 0x2100, 0x2200, 0x2204, 0x2208, 0x220C, 0x3000, 0x4000, 0x5000, 0x5100, 0x6000,
        0x7000, 0x7100].Pairwise (· ≤ ·)
      decide
    | coprocessor =>
      show [Coprocessor.resetVector, 0x20000, 0x20100, 0x100000].Pairwise (· ≤ ·)
      decide
  exact List.pairwise_map.1 origins

/-- A map lists the regions as they are. -/
theorem mapOf_regionsOf {side : Side} {m : AddressMap Block} (drawn : mapOf (regionsOf c side) = .ok m) :
    m = ⟨regionsOf c side⟩ := by
  unfold mapOf at drawn
  split at drawn
  · next draft added =>
    obtain ⟨-, rfl⟩ :=
      (AddressMap.Draft.addAll_eq_ok_iff AddressMap.Draft.arranged_empty).1 added
    have sorted : (AddressMap.Draft.mk ([] ++ regionsOf c side)).build = ⟨regionsOf c side⟩ := by
      rw [AddressMap.Draft.build, List.nil_append]
      exact congrArg AddressMap.mk (List.mergeSort_of_pairwise (by simpa using sorted_regionsOf c side))
    exact (Except.ok.inj drawn).symm.trans sorted
  · cases drawn

/-- A board with little RAM and sessions of `spiCycles` ticks. -/
def Config.small (spiCycles : Nat) : Config :=
  { spiCycles, adcBits := 18, ramBytes := 4 }

/-- The small board at reset. -/
def small (spiCycles : Nat) : Board :=
  atReset (.small spiCycles) ⟨regionsOf (.small spiCycles) .supervisor⟩
    ⟨regionsOf (.small spiCycles) .coprocessor⟩

theorem assemble_small (spiCycles : Nat) : assemble (.small spiCycles) = .ok (small spiCycles) := by
  have drawn (side : Side) : mapOf (regionsOf (.small spiCycles) side) =
      .ok ⟨regionsOf (.small spiCycles) side⟩ := by
    -- the regions do not depend on the cycles, and for a number of these the map can be computed
    have same : regionsOf (.small spiCycles) side = regionsOf (.small 0) side := by
      cases side <;> rfl
    obtain ⟨m, drawn⟩ : ∃ m, mapOf (regionsOf (.small 0) side) = .ok m := by
      cases side <;> exact ⟨_, rfl⟩
    rw [same, drawn, mapOf_regionsOf drawn]
  have bits : 0 < 18 ∧ 18 ≤ 32 := by decide
  exact assemble_eq_ok_iff.2 ⟨_, _, bits, drawn .supervisor, drawn .coprocessor, rfl⟩

/-- A reachable board has the regions of its configuration. -/
theorem Reachable.mem_map (reach : Reachable c b) {side : Side} {r : AddressMap.Region Block} :
    r ∈ (b.map side).regions ↔ r ∈ regionsOf c side :=
  (mapOf_eq_ok (reach.map_drawn side)).1 r

/-- The regions of a reachable board stand side by side. -/
theorem Reachable.arranged (reach : Reachable c b) (side : Side) :
    AddressMap.Arranged (b.map side).regions :=
  (mapOf_eq_ok (reach.map_drawn side)).2

/-- An address of a reachable board decodes to the region that contains it. -/
theorem Reachable.decode?_eq_some_iff (reach : Reachable c b) {side : Side} {addr : Addr}
    {r : AddressMap.Region Block} :
    (b.map side).decode? addr = some r ↔ r ∈ (b.map side).regions ∧ addr ∈ r :=
  AddressMap.decode?_eq_some_iff (reach.arranged side)

end Board

end InstrumentBus
