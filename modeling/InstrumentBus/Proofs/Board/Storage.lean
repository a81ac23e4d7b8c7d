import InstrumentBus.Proofs.Word.Window
import InstrumentBus.Proofs.Board.Attended
import InstrumentBus.Proofs.Board.Programming
import InstrumentBus.Proofs.Board.Starting
import InstrumentBus.Proofs.Ram.Memory
import InstrumentBus.Proofs.Transport.Calls

/-!
# The RAMs of a board as plain memory

The sample RAM and the program RAM are made of words and lie behind decoding, a switch and a board that moves
on in every access, and others use the board at the same time. While the supervisor is connected to one of
them it finds a plain memory there: a memory with the same bytes at the beginning gives the same outcomes,
call by call, and has the same bytes at the end (`ram_serves_as_memory`).
-/

namespace InstrumentBus.Board

variable {c : Config} {b : Board} {m : Memory}

/-! ## The two RAMs -/

/-- The RAMs of a board. -/
inductive SharedRam where
  | samples
  | program
deriving DecidableEq, Repr

/-- The shared device that a RAM is. -/
def SharedRam.device : SharedRam → Shared
  | .samples => .wf0Ram
  | .program => .pico0Ram

/-- The region in which the supervisor sees a RAM. -/
def SharedRam.region (c : Config) : SharedRam → AddressMap.Region Block
  | .samples => samplesRegion c
  | .program => programRegion c

/-- What a RAM of the board holds. -/
def ram (b : Board) : SharedRam → Ram
  | .samples => b.wf0Ram.device
  | .program => b.program

/-- The board with other words in one of its RAMs. -/
def withRam (b : Board) (r : Ram) : SharedRam → Board
  | .samples => { b with wf0Ram := { b.wf0Ram with device := r } }
  | .program => b.withProgram r

variable {s : SharedRam}

theorem Reachable.mem_ramRegion (reach : Reachable c b) (s : SharedRam) :
    s.region c ∈ (b.map .supervisor).regions := by
  cases s with
  | samples => exact reach.mem_samplesRegion
  | program => exact reach.mem_programRegion

theorem SharedRam.owner_region (s : SharedRam) : (s.region c).owner = s.device.block := by
  cases s <;> rfl

theorem SharedRam.size_region (s : SharedRam) : (s.region c).size = c.ramBytes := by
  cases s <;> rfl

/-- A RAM is as large as its region in whole words. -/
theorem Reachable.size_ram (reach : Reachable c b) (s : SharedRam) :
    (b.ram s).size = 4 * ((c.ramBytes.toNat + 3) / 4) := by
  cases s with
  | samples => exact congrArg (4 * ·) reach.size_memory
  | program => exact reach.size_program

/-- The board does nothing to its RAMs by itself. -/
theorem ram_tick (b : Board) (s : SharedRam) : b.tick.ram s = b.ram s := by
  cases s with
  | samples =>
    have kept := b.rig.memory_tick
    rwa [← rig_tick] at kept
  | program => exact program_tick b

theorem ram_withRam (b : Board) (r : Ram) (s : SharedRam) : (b.withRam r s).ram s = r := by
  cases s <;> rfl

theorem owner_withRam (b : Board) (r : Ram) (s : SharedRam) :
    (b.withRam r s).owner s.device = b.owner s.device := by
  cases s <;> rfl

/-- A transaction of the supervisor with a RAM that it is connected to is one of the RAM. -/
theorem supervisorTransact_ram (supervised : b.owner s.device = supervisorMaster) (req : Request) :
    b.supervisorTransact s.device.block req = ((b.ram s).transact req).map id (b.withRam · s) := by
  cases s with
  | samples =>
    have reached : b.wf0Ram.transact supervisorMaster req = _ := if_pos supervised.symm
    show (b.wf0Ram.transact supervisorMaster req).map id (fun s => { b with wf0Ram := s }) = _
    rw [reached]
    rfl
  | program => exact supervisorTransact_program supervised req

/-- Whatever else is done to a block, a RAM that is connected to the supervisor stays as it is. -/
theorem transact?_ram {side : Side} {block : Block} {req : Request} {answered : Response × Board}
    (result : b.transact? side block req = some answered) (supervised : b.owner s.device = supervisorMaster)
    (beside : side = .supervisor → block ≠ s.device.block) : answered.2.ram s = b.ram s := by
  cases s with
  | samples =>
    cases side with
    | supervisor =>
      cases block with
      | wf0Ram => exact absurd rfl (beside rfl)
      | wf0RamSelect => cases result; exact BusSwitch.device_transactControl _ _
      | _ => cases result; rfl
    | coprocessor => cases block <;> cases result <;> rfl
  | program => exact (transact?_pico0Ram result).2.2 supervised beside

/-! ## What others may do -/

/-- An event in which the supervisor does not write to a RAM, and which leaves the RAM connected to it. -/
structure Event.LeavesRam (c : Config) (s : SharedRam) (e : Event) : Prop where
  unwritten : ∀ op, e = .access .supervisor op → op.isWrite = true → op.Aligned →
    op.addr.wordBase ∉ s.region c
  supervised : ∀ {b}, Reachable c b → b.owner s.device = supervisorMaster →
    (b.step e).owner s.device = supervisorMaster

/-- Reads of the supervisor and everything that others do leave a RAM to the supervisor. -/
theorem Event.leavesRam {e : Event} (quiet : ∀ op, e = .access .supervisor op → op.isWrite = false) :
    e.LeavesRam c s := by
  constructor
  · intro op access writes
    rw [quiet op access] at writes
    cases writes
  · intro b reach supervised
    by_contra moved
    obtain ⟨op, access, writes, -⟩ := reach.step_selects fun kept => moved (kept.trans supervised)
    rw [quiet op access] at writes
    cases writes

/-- What a transaction makes of the selection in front of a RAM that is connected to the supervisor, it makes on
every board. -/
theorem Reachable.owner_supervised (reach : Reachable c b) (supervised : b.owner s.device = supervisorMaster)
    (req : Request) : (b.supervisorTransact s.device.selectBlock req).2.owner s.device =
      (BusSwitch.reset wf0RamMasters ()).ownerAfter req := by
  have moves {σ : Type} {switch : BusSwitch σ} (seated : switch.Seated 2)
      (first : switch.active = supervisorMaster) :
      (switch.transactControl req).2.active = (BusSwitch.reset wf0RamMasters ()).ownerAfter req := by
    obtain ⟨count, current⟩ := seated
    rw [BusSwitch.active_transactControl (count ▸ current)]
    cases req with
    | read addr => exact first
    | write addr data lanes =>
      rw [BusSwitch.ownerAfter, BusSwitch.ownerAfter, count, first]
      rfl
  cases s with
  | samples => exact moves reach.rig.2.ram supervised
  | program => exact moves reach.seats.program supervised

/-- The master that an access to the selection in front of a RAM connects is the same on every board. -/
theorem Reachable.owner_perform (reach : Reachable c b) (supervised : b.owner s.device = supervisorMaster) {op : Op}
    (aligned : op.Aligned) {region : AddressMap.Region Block} (present : region ∈ regionsOf c .supervisor)
    (selects : region.owner = s.device.selectBlock) (inside : op.addr.wordBase ∈ region) :
    (b.perform .supervisor op).2.owner s.device = (BusSwitch.reset wf0RamMasters ()).ownerAfter
      (op.request.relocate (region.offsetOf op.addr.wordBase)) := by
  have connected : b.tick.owner s.device = supervisorMaster := (owner_tick b s.device).trans supervised
  obtain ⟨answered, result, outcome⟩ := reach.perform_of_mem op (reach.mem_map.2 present) inside aligned
  rw [selects] at result
  obtain rfl := Option.some.inj result
  rw [outcome]
  exact Reachable.owner_supervised (.step .tick reach) connected _

/-- An event that leaves the connection to the supervisor on one board does so on every board. -/
theorem Reachable.leavesRam (reach : Reachable c b) (supervised : b.owner s.device = supervisorMaster) {e : Event}
    (unwritten : ∀ op, e = .access .supervisor op → op.isWrite = true → op.Aligned →
      op.addr.wordBase ∉ s.region c)
    (kept : (b.step e).owner s.device = supervisorMaster) : e.LeavesRam c s := by
  refine ⟨unwritten, fun {b'} reach' supervised' => ?_⟩
  by_contra moved
  obtain ⟨op, rfl, -, aligned, region, present, named, first⟩ :=
    reach'.step_selects fun same => moved (same.trans supervised')
  have listed := reach'.mem_map.1 present
  have inside : op.addr.wordBase ∈ region := by
    rw [first]
    exact ((reach'.arranged .supervisor).placed present).origin_mem_span
  have usual : ∀ r ∈ regionsOf .standard .supervisor,
      r.name = s.device.name ++ "_pi" → r.owner = s.device.selectBlock := by
    cases s <;> decide
  have selects : region.owner = s.device.selectBlock :=
    regionsOf_of_standard (P := fun name owner => name = s.device.name ++ "_pi" → owner = s.device.selectBlock)
      usual listed named
  have here : (b.perform .supervisor op).2.owner s.device = supervisorMaster := kept
  rw [reach.owner_perform supervised aligned listed selects inside] at here
  exact moved ((reach'.owner_perform supervised' aligned listed selects inside).trans here)

/-- The region of a RAM is the only one that leads to it. -/
theorem SharedRam.eq_region {region : AddressMap.Region Block} (present : region ∈ regionsOf c .supervisor)
    (leads : region.owner = s.device.block) : region = s.region c := by
  simp only [regionsOf, supervisorRegions, List.mem_cons, List.not_mem_nil, or_false] at present
  cases s <;>
    rcases present with rfl | rfl | rfl | rfl | rfl | rfl | rfl | rfl | rfl | rfl | rfl | rfl | rfl <;>
      first | rfl | cases leads

theorem Op.request_of_read {op : Op} (reads : op.isWrite = false) (place : Addr) :
    op.request.relocate place = .read place := by
  cases op with
  | readWord addr => rfl
  | readByte addr => rfl
  | writeWord addr w => cases reads
  | writeByte addr v => cases reads

/-- A RAM stays as it is in such an event. -/
theorem Reachable.ram_step (reach : Reachable c b) {e : Event} (leaves : e.LeavesRam c s)
    (supervised : b.owner s.device = supervisorMaster) : (b.step e).ram s = b.ram s := by
  have connected : b.tick.owner s.device = supervisorMaster := (owner_tick b s.device).trans supervised
  cases e with
  | tick => exact ram_tick b s
  | access side op =>
    show (b.perform side op).2.ram s = b.ram s
    rcases reach.perform_answers side op with
      ⟨-, same⟩ | ⟨aligned, region, present, inside, answered, result, outcome⟩
    · rw [same]
    · rw [outcome, ← ram_tick b s]
      have listed := reach.mem_map.1 present
      by_cases reached : side = .supervisor ∧ region.owner = s.device.block
      · obtain ⟨rfl, leads⟩ := reached
        obtain rfl := SharedRam.eq_region listed leads
        have reads : op.isWrite = false := by
          rw [Bool.eq_false_iff]
          exact fun writes => leaves.unwritten op rfl writes aligned inside
        rw [Op.request_of_read reads, SharedRam.owner_region] at result
        have answer : answered = _ := (Option.some.inj result).symm.trans (supervisorTransact_ram connected _)
        rw [answer]
        exact ram_withRam _ _ s
      · exact transact?_ram result connected fun supervisor leads => reached ⟨supervisor, leads⟩
  | sample raw => cases s <;> rfl
  | core activity => cases s <;> rfl

/-! ## Places in a RAM -/

/-- The byte at an address is the byte in place `i` of a RAM, in a word of the region. -/
structure Place (c : Config) (s : SharedRam) (addr : Addr) (i : Nat) : Prop where
  address : addr.toNat = (s.region c).origin.toNat + i
  base : addr.wordBase ∈ s.region c
  word : ((s.region c).offsetOf addr.wordBase).toNat / 4 = i / 4
  lane : addr.byteIndex = i % 4

/-- The regions of the RAMs are made of whole words. -/
theorem Reachable.four_dvd_ramBytes (reach : Reachable c b) (populated : 4 ≤ c.ramBytes.toNat) :
    4 ∣ c.ramBytes.toNat := by
  obtain ⟨k, exponent⟩ := ((reach.arranged .supervisor).placed reach.mem_samplesRegion).sized
  have size : c.ramBytes.toNat = 2 ^ k := exponent
  rw [size] at populated ⊢
  have two : 2 ≤ k := (Nat.pow_le_pow_iff_right (show 1 < 2 by decide)).1 (show 2 ^ 2 ≤ 2 ^ k from populated)
  exact Nat.pow_dvd_pow 2 two

/-- The origins of the RAMs lie low and are multiples of their size, so the RAMs end low, too. -/
theorem Reachable.limit_ramRegion_le (reach : Reachable c b) (s : SharedRam) :
    (s.region c).limit ≤ 0xC000 := by
  have aligned := ((reach.arranged .supervisor).placed (reach.mem_ramRegion s)).aligned
  have origin : 0 < (s.region c).origin.toNat ∧ (s.region c).origin.toNat ≤ 0x6000 := by
    cases s
    · exact (by decide : 0 < 0x4000 ∧ 0x4000 ≤ 0x6000)
    · exact (by decide : 0 < 0x6000 ∧ 0x6000 ≤ 0x6000)
  have size : (s.region c).size.toNat ≤ (s.region c).origin.toNat := Nat.le_of_dvd origin.1 aligned
  rw [AddressMap.Region.limit]
  omega

/-- An address of the region is that of a byte of the RAM. -/
theorem Reachable.place (reach : Reachable c b) (populated : 4 ≤ c.ramBytes.toNat) {addr : Addr}
    (inside : addr ∈ s.region c) : ∃ i < (b.ram s).size, Place c s addr i := by
  have placed := (reach.arranged .supervisor).placed (reach.mem_ramRegion s)
  have whole := reach.four_dvd_ramBytes populated
  have size : (s.region c).size.toNat = c.ramBytes.toNat := congrArg BitVec.toNat s.size_region
  have words : 4 ∣ (s.region c).size.toNat := size ▸ whole
  have origin : 4 ∣ (s.region c).origin.toNat := Nat.dvd_trans words placed.aligned
  obtain ⟨above, below⟩ := AddressMap.Region.mem_iff.1 inside
  have above : (s.region c).origin.toNat ≤ addr.toNat := above
  have below : addr.toNat < (s.region c).origin.toNat + (s.region c).size.toNat := below
  have round := Addr.toNat_wordBase addr
  have base : addr.wordBase ∈ s.region c := by
    refine AddressMap.Region.mem_iff.2 ⟨?_, ?_⟩
    · show (s.region c).origin.toNat ≤ addr.wordBase.toNat
      omega
    · show addr.wordBase.toNat < (s.region c).origin.toNat + (s.region c).size.toNat
      omega
  have offset := AddressMap.Region.toNat_offsetOf placed base
  refine ⟨addr.toNat - (s.region c).origin.toNat, ?_, by omega, base, by omega, ?_⟩
  · rw [reach.size_ram]
    omega
  · rw [Addr.byteIndex]
    omega

/-! ## A memory with the same bytes -/

/-- The supervisor is connected to a RAM, and a memory holds the bytes of the RAM. -/
structure Imaged (c : Config) (s : SharedRam) (m : Memory) (b : Board) : Prop where
  reach : Reachable c b
  supervised : b.owner s.device = supervisorMaster
  images : m.Images (s.region c).origin.toNat (b.ram s)

theorem Imaged.step (imaged : Imaged c s m b) {e : Event} (leaves : e.LeavesRam c s) :
    Imaged c s m (b.step e) := by
  refine ⟨.step e imaged.reach, leaves.supervised imaged.reach imaged.supervised, ?_⟩
  rw [imaged.reach.ram_step leaves imaged.supervised]
  exact imaged.images

/-- An access of the supervisor inside the region is a transaction of the RAM. -/
theorem Imaged.perform (imaged : Imaged c s m b) (op : Op) (aligned : op.Aligned)
    (base : op.addr.wordBase ∈ s.region c) {answer : Response} {r : Ram}
    (transacted : (b.ram s).transact
      (op.request.relocate ((s.region c).offsetOf op.addr.wordBase)) = (answer, r))
    {m' : Memory} (images : m'.Images (s.region c).origin.toNat r) :
    ∃ after, b.perform .supervisor op = (.ok (op.result answer.data), after) ∧ Imaged c s m' after := by
  have connected : b.tick.owner s.device = supervisorMaster :=
    (owner_tick b s.device).trans imaged.supervised
  obtain ⟨answered, result, outcome⟩ :=
    imaged.reach.perform_of_mem op (imaged.reach.mem_ramRegion s) base aligned
  rw [SharedRam.owner_region] at result
  have reached : answered = (answer, b.tick.withRam r s) := by
    refine (Option.some.inj result).symm.trans ((supervisorTransact_ram connected _).trans ?_)
    rw [ram_tick, transacted]
    rfl
  subst reached
  refine ⟨_, outcome, .of_perform imaged.reach outcome, ?_, ?_⟩
  · exact (owner_withRam _ _ s).trans connected
  · rwa [ram_withRam]

variable {addr : Addr}

/-- Where a word of the region lies in the RAM. -/
theorem Imaged.wordPlace (imaged : Imaged c s m b) (populated : 4 ≤ c.ramBytes.toNat)
    (inside : addr ∈ s.region c) (aligned : addr.Aligned) :
    addr.wordBase ∈ s.region c ∧
      ((s.region c).offsetOf addr.wordBase).toNat < (b.ram s).size ∧
      addr.toNat =
        (s.region c).origin.toNat + ((s.region c).offsetOf addr.wordBase).toNat / 4 * 4 ∧
      addr.toNat + 4 < 2 ^ 32 := by
  obtain ⟨i, present, address, base, word, lane⟩ := imaged.reach.place populated inside
  have whole : 4 ∣ (b.ram s).size := ⟨_, imaged.reach.size_ram s⟩
  have below : addr.toNat < (s.region c).limit := inside.2
  have limit := imaged.reach.limit_ramRegion_le s
  rw [Addr.byteIndex, aligned] at lane
  exact ⟨base, by omega, by omega, by omega⟩

theorem Imaged.readWord (imaged : Imaged c s m b) (populated : 4 ≤ c.ramBytes.toNat)
    (inside : addr ∈ s.region c) (aligned : addr.Aligned) :
    ∃ w after, b.perform .supervisor (.readWord addr) = (.ok w, after) ∧ m.readWord addr = .ok w ∧
      Imaged c s m after := by
  obtain ⟨base, present, place, below⟩ := imaged.wordPlace populated inside aligned
  obtain ⟨after, performed, next⟩ := imaged.perform (.readWord addr) (fun _ => aligned) base rfl imaged.images
  exact ⟨_, after, performed, (imaged.images.holdsWord present place below).readWord aligned, next⟩

theorem Imaged.writeWord (imaged : Imaged c s m b) (populated : 4 ≤ c.ramBytes.toNat)
    (inside : addr ∈ s.region c) (aligned : addr.Aligned) (w : Word) :
    ∃ after, b.perform .supervisor (.writeWord addr w) = (.ok 0, after) ∧
      m.writeWord addr w = .ok (m.storeWord addr w) ∧ Imaged c s (m.storeWord addr w) after := by
  obtain ⟨base, present, place, below⟩ := imaged.wordPlace populated inside aligned
  obtain ⟨after, performed, next⟩ := imaged.perform (.writeWord addr w) (fun _ => aligned) base rfl
    (imaged.images.storeWord present place below w)
  exact ⟨after, performed, (imaged.images.holdsWord present place below).writeWord aligned w, next⟩

theorem Imaged.readByte (imaged : Imaged c s m b) (populated : 4 ≤ c.ramBytes.toNat)
    (inside : addr ∈ s.region c) :
    ∃ v after, b.perform .supervisor (.readByte addr) = (.ok (v.setWidth 32), after) ∧
      m.byte addr.toNat = .ok v ∧ Imaged c s m after := by
  obtain ⟨i, present, address, base, word, lane⟩ := imaged.reach.place populated inside
  obtain ⟨after, performed, next⟩ := imaged.perform (.readByte addr) (by rintro ⟨⟩) base rfl imaged.images
  have held := imaged.images.byte present word
  rw [← lane, ← address] at held
  exact ⟨_, after, performed, held, next⟩

theorem Imaged.writeByte (imaged : Imaged c s m b) (populated : 4 ≤ c.ramBytes.toNat)
    (inside : addr ∈ s.region c) (v : Byte) :
    ∃ after, b.perform .supervisor (.writeByte addr v) = (.ok 0, after) ∧
      m.writeByte addr v = .ok (m.store addr.toNat v) ∧ Imaged c s (m.store addr.toNat v) after := by
  obtain ⟨i, present, address, base, word, lane⟩ := imaged.reach.place populated inside
  have written := (b.ram s).transact_writeByte word present v
  rw [← lane] at written
  have images := imaged.images.store present v
  rw [← address] at images
  obtain ⟨after, performed, next⟩ := imaged.perform (.writeByte addr v) (by rintro ⟨⟩) base written images
  have held := imaged.images.byte present word
  rw [← address] at held
  refine ⟨after, performed, ?_, next⟩
  rw [Memory.writeByte, held]
  rfl

/-! ## Calls among others -/

/-- The board as the supervisor reaches it, while others use it too. -/
abbrev Alongside :=
  Attended fun (_ : Board) (_ : Turn) (_ : Event) (_ : Unit) => ()

/-- A memory holds the bytes of a RAM that the supervisor is connected to, and the others leave it to the
supervisor. -/
structure StandsFor (c : Config) (s : SharedRam) (t : Alongside) (m : Memory) : Prop where
  imaged : Imaged c s m t.board
  left : ∀ events ∈ t.ahead, ∀ e ∈ events, e.LeavesRam c s

variable {t : Alongside}

theorem StandsFor.interlude (stands : StandsFor c s t m) : StandsFor c s t.interlude m := by
  refine ⟨?_, fun events later => stands.left events (List.mem_of_mem_tail later)⟩
  exact Attended.interlude_keeps (P := fun b _ => Imaged c s m b)
    (fun events listed e happens b _ imaged => imaged.step (stands.left events listed e happens)) stands.imaged

theorem StandsFor.observe (stands : StandsFor c s t m) {op : Op} {outcome : Except Fault Word} {after : Board}
    (performed : t.board.perform .supervisor op = (outcome, after)) {m' : Memory}
    (imaged : Imaged c s m' after) : StandsFor c s (t.observe .driver (.access .supervisor op)) m' := by
  refine ⟨?_, stands.left⟩
  show Imaged c s m' (t.board.perform .supervisor op).2
  rwa [performed]

theorem StandsFor.readWord (before : StandsFor c s t m) (populated : 4 ≤ c.ramBytes.toNat)
    (inside : addr ∈ s.region c) :
    Transport.Agree (StandsFor c s) (Transport.readWord t addr) (Transport.readWord m addr) := by
  have stands := before.interlude
  by_cases aligned : addr.Aligned
  · obtain ⟨w, after, performed, read, next⟩ := stands.imaged.readWord populated inside aligned
    exact ⟨(congrArg Prod.fst performed).trans read.symm, stands.observe performed next⟩
  · have skewed : ¬Op.Aligned (.readWord addr) := fun even => aligned (even rfl)
    have performed := perform_of_not_aligned t.interlude.board .supervisor skewed
    have read : m.readWord addr = .error (.misaligned addr) := if_neg aligned
    exact ⟨(congrArg Prod.fst performed).trans read.symm, stands.observe performed stands.imaged⟩

theorem StandsFor.writeWord (before : StandsFor c s t m) (populated : 4 ≤ c.ramBytes.toNat)
    (inside : addr ∈ s.region c) (w : Word) :
    Transport.Agree (StandsFor c s) (Transport.writeWord t addr w) (Transport.writeWord m addr w) := by
  have stands := before.interlude
  show Transport.Agree _ _ (m.commit (m.writeWord addr w))
  by_cases aligned : addr.Aligned
  · obtain ⟨after, performed, written, next⟩ := stands.imaged.writeWord populated inside aligned w
    rw [written]
    exact ⟨congrArg Prod.fst (View.writeWord_of_perform performed), stands.observe performed next⟩
  · have skewed : ¬Op.Aligned (.writeWord addr w) := fun even => aligned (even rfl)
    have performed := perform_of_not_aligned t.interlude.board .supervisor skewed
    have refused : t.interlude.board.writeWord .supervisor addr w =
        (.error (.misaligned addr), t.interlude.board) := if_neg aligned
    have written : m.writeWord addr w = .error (.misaligned addr) := if_neg aligned
    rw [written]
    exact ⟨congrArg Prod.fst refused, stands.observe performed stands.imaged⟩

theorem StandsFor.readByte (before : StandsFor c s t m) (populated : 4 ≤ c.ramBytes.toNat)
    (inside : addr ∈ s.region c) :
    Transport.Agree (StandsFor c s) (Transport.readByte t addr) (Transport.readByte m addr) := by
  have stands := before.interlude
  obtain ⟨v, after, performed, read, next⟩ := stands.imaged.readByte populated inside
  exact ⟨(congrArg Prod.fst (View.readByte_of_perform performed)).trans read.symm, stands.observe performed next⟩

theorem StandsFor.writeByte (before : StandsFor c s t m) (populated : 4 ≤ c.ramBytes.toNat)
    (inside : addr ∈ s.region c) (v : Byte) :
    Transport.Agree (StandsFor c s) (Transport.writeByte t addr v) (Transport.writeByte m addr v) := by
  have stands := before.interlude
  show Transport.Agree _ _ (m.commit (m.writeByte addr v))
  obtain ⟨after, performed, written, next⟩ := stands.imaged.writeByte populated inside v
  rw [written]
  exact ⟨congrArg Prod.fst (View.writeByte_of_perform performed), stands.observe performed next⟩

/-- Inside the region of a RAM the board comes out as a memory does. -/
theorem refines_memory (populated : 4 ≤ c.ramBytes.toNat) (s : SharedRam) :
    Transport.Refines (· ∈ s.region c) (StandsFor c s) where
  readWord stands inside := stands.readWord populated inside
  writeWord stands inside w := stands.writeWord populated inside w
  readByte stands inside := stands.readByte populated inside
  writeByte stands inside v := stands.writeByte populated inside v

/-- Calls of the supervisor inside a RAM that it is connected to have the same outcomes as on a memory with the
same bytes, and leave the same bytes behind, whatever others do ahead of each access that leaves the RAM to
the supervisor. -/
theorem ram_serves_as_memory (reach : Reachable c b) (populated : 4 ≤ c.ramBytes.toNat) (s : SharedRam)
    (supervised : b.owner s.device = supervisorMaster)
    (same : m.Images (s.region c).origin.toNat (b.ram s)) {ahead : List (List Event)}
    (left : ∀ events ∈ ahead, ∀ e ∈ events, e.LeavesRam c s) {calls : List Transport.Call}
    (inside : ∀ call ∈ calls, ∀ addr ∈ call.addresses, addr ∈ s.region c) :
    let board : Alongside := ⟨b, ahead, ()⟩
    (Transport.calls board calls).1 = (Transport.calls m calls).1 ∧
      Imaged c s (Transport.calls m calls).2 (Transport.calls board calls).2.board := by
  have stands : StandsFor c s ⟨b, ahead, ()⟩ m := ⟨⟨reach, supervised, same⟩, left⟩
  obtain ⟨outcome, after⟩ := (refines_memory populated s).calls stands inside
  exact ⟨outcome, after.imaged⟩

/-- On a fresh board the memory that backs every region of the supervisor's manifest holds the bytes of both
RAMs. -/
theorem imaged_of_assembled (assembled : assemble c = .ok b) (populated : 4 ≤ c.ramBytes.toNat) (s : SharedRam) :
    Imaged c s (.ofManifest (b.manifest .supervisor)) b := by
  have reach : Reachable c b := .assembled assembled
  have backed : ((s.region c).origin, (s.region c).size) ∈
      (b.manifest .supervisor).regions.entries.map fun e => (e.2.origin, e.2.size) := by
    have listed : ((s.region c).name, (s.region c).entry) ∈ (b.manifest .supervisor).regions.entries :=
      (AddressMap.perm_manifest_entries (reach.arranged .supervisor)).mem_iff.2
        (List.mem_map.2 ⟨_, reach.mem_ramRegion s, rfl⟩)
    exact List.mem_map.2 ⟨_, listed, rfl⟩
  have whole := reach.four_dvd_ramBytes populated
  have size : (s.region c).size.toNat = c.ramBytes.toNat := congrArg BitVec.toNat s.size_region
  obtain ⟨supervisorMap, coprocessorMap, -, -, -, rfl⟩ := assemble_eq_ok_iff.1 assembled
  have fresh : (atReset c supervisorMap coprocessorMap).ram s = .zero c.ramBytes.toNat := by cases s <;> rfl
  refine ⟨reach, by cases s <;> rfl, fun i present => ?_⟩
  have inside : i < (s.region c).size.toNat := by
    rw [reach.size_ram] at present
    omega
  have limit : (s.region c).origin.toNat + (s.region c).size.toNat ≤ 2 ^ 32 :=
    ((reach.arranged .supervisor).placed (reach.mem_ramRegion s)).limit_le
  have zeros := Memory.byte?_ofRanges backed inside
  rw [Addr.toNat_add_ofNat limit inside] at zeros
  rw [fresh] at present ⊢
  exact zeros.trans (Ram.byte?_zero _ present).symm

/-- Words and bytes of the program RAM, the last of them at an address that is not that of a word. -/
def mixedCalls : List Transport.Call :=
  [.writeWord 0x6000 0x44332211, .readByte 0x6002, .writeByte 0x6001 0xAA, .readWords 0x6000 1, .readWord 0x6002]

/-- What goes on ahead of the first accesses: the co-processor tries to write the RAM, and the supervisor reads it
and connects itself once more. -/
def meanwhile : List (List Event) :=
  [[.tick, .access .coprocessor (.writeWord Coprocessor.resetVector 7)], [.access .supervisor (.writeWord 0x220C 0)],
    [.access .supervisor (.readWord 0x6000), .core (.trap 1)]]

/-- The calls come out alike on a small board and on a memory of zeros, and the second byte that was read was
written in between. -/
theorem program_serves_as_memory :
    let board : Alongside := ⟨small 4, meanwhile, ()⟩
    let memory : Memory := .ofManifest ((small 4).manifest .supervisor)
    (Transport.calls board mixedCalls).1 = (Transport.calls memory mixedCalls).1 ∧
      (Transport.calls memory mixedCalls).1 =
        [.ok .written, .ok (.byte 0x33), .ok .written, .ok (.words [0x4433AA11]), .error (.misaligned 0x6002)] := by
  have populated : 4 ≤ (Config.small 4).ramBytes.toNat := by decide
  have imaged := imaged_of_assembled (assemble_small 4) populated .program
  have inside : ∀ call ∈ mixedCalls, ∀ addr ∈ call.addresses, addr ∈ SharedRam.program.region (.small 4) := by
    simp only [mixedCalls, List.forall_mem_cons, List.not_mem_nil, false_implies, implies_true, and_true,
      Transport.Call.addresses, Transport.blockAddresses]
    decide
  have left : ∀ events ∈ meanwhile, ∀ e ∈ events, e.LeavesRam (.small 4) .program := by
    intro events listed e happens
    simp only [meanwhile, List.mem_cons, List.not_mem_nil, or_false] at listed
    rcases listed with rfl | rfl | rfl
    · rcases List.mem_pair.1 happens with rfl | rfl <;> exact Event.leavesRam (by rintro op ⟨⟩)
    · obtain rfl := List.mem_singleton.1 happens
      apply imaged.reach.leavesRam imaged.supervised
      · rintro op ⟨⟩ -
        decide
      · decide +kernel
    · rcases List.mem_pair.1 happens with rfl | rfl
      · exact Event.leavesRam (by rintro op ⟨⟩; rfl)
      · exact Event.leavesRam (by rintro op ⟨⟩)
  have alike := (ram_serves_as_memory imaged.reach populated .program imaged.supervised imaged.images left inside).1
  have outcomes : (Transport.calls (⟨small 4, meanwhile, ()⟩ : Alongside) mixedCalls).1 =
      [.ok .written, .ok (.byte 0x33), .ok .written, .ok (.words [0x4433AA11]), .error (.misaligned 0x6002)] := by
    decide +kernel
  exact ⟨alike, alike.symm.trans outcomes⟩

end InstrumentBus.Board
