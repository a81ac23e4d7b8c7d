import InstrumentBus.Proofs.Word.Window
import InstrumentBus.Proofs.Board.Grants
import InstrumentBus.Proofs.BusSwitch.Lanes

/-!
# Acquiring a shared device

An acquisition writes the index of a master to the selection in front of a device and reads back who is
connected. The driver cuts the index to the width of the selection before it writes, and the switch connects
the first master where what arrives names none. So a master that does not exist is refused, but the device
goes to the master that the low bits of the index name, if there is one (`absent_master_is_refused`).
-/

namespace InstrumentBus.Board

variable {c : Config} {b : Board} {d : Shared}

/-! ## The selection -/

/-- No device has more than three masters. -/
theorem Shared.size_masters_le (d : Shared) : d.masters.size ≤ 3 := by
  cases d <;> decide

/-- What the selection in front of a device keeps of an index. -/
def Shared.lowBits (d : Shared) (master : Nat) : Nat :=
  master % 2 ^ (BusSwitch.controlLayout d.masters.size).widthAt 0

/-- The master that a request for `master` connects. -/
def Shared.connectedBy (d : Shared) (master : Nat) : Nat :=
  if d.lowBits master < d.masters.size then d.lowBits master else supervisorMaster

/-- Masters that exist are told apart by their low bits. -/
theorem Shared.connectedBy_of_lt {master : Nat} (present : master < d.masters.size) :
    d.connectedBy master = master := by
  have whole : d.lowBits master = master :=
    Nat.mod_eq_of_lt (BusSwitch.lt_two_pow_selectionWidth present)
  rw [connectedBy, whole, if_pos present]

theorem Shared.connectedBy_lt (d : Shared) (master : Nat) : d.connectedBy master < d.masters.size := by
  unfold connectedBy
  split
  · assumption
  · cases d <;> decide

/-- The first master is connected just where the low bits name it or name none. -/
theorem Shared.connectedBy_eq_supervisor_iff (d : Shared) (master : Nat) :
    d.connectedBy master = supervisorMaster ↔ d.lowBits master = 0 ∨ d.masters.size ≤ d.lowBits master := by
  unfold connectedBy
  split
  · next named => exact ⟨.inl, fun either => either.resolve_right (Nat.not_le.2 named)⟩
  · next unnamed => exact iff_of_true rfl (.inr (Nat.le_of_not_lt unnamed))

/-- A write of the supervisor to the selection connects the master that its enabled lanes name, or the first,
and leaves the other devices to their owners. -/
theorem Reachable.owner_of_selectLanes (reach : Reachable c b) (d : Shared) {data : Word} {lanes : Lanes}
    {answered : Response × Board}
    (result : b.transact? .supervisor d.selectBlock (.write 0 data lanes) = some answered) :
    answered.2.owner d = BusSwitch.selectedBy d.masters.size (data &&& lanes.mask) ∧
      ∀ other, other ≠ d → answered.2.owner other = b.owner other := by
  have connects {σ : Type} {s : BusSwitch σ} {n : Nat} (seated : s.Seated n) :
      (s.transactControl (.write 0 data lanes)).2.active =
        BusSwitch.selectedBy n (data &&& lanes.mask) := by
    obtain ⟨count, current⟩ := seated
    rw [BusSwitch.active_write (count ▸ current), count]
  obtain rfl : b.supervisorTransact d.selectBlock (.write 0 data lanes) = answered := Option.some.inj result
  constructor
  · cases d with
    | dac0 => exact connects reach.rig.2.dac
    | adc0 => exact connects reach.seats.adc
    | wf0Ram => exact connects reach.rig.2.ram
    | pico0Ram => exact connects reach.seats.program
  · intro other apart
    refine owner_supervisorTransact b fun same => (apart ?_).elim
    cases d <;> cases other <;> first | rfl | cases same

/-- A write of a whole word connects the master that the word names, or the first. -/
theorem Reachable.owner_of_select (reach : Reachable c b) (d : Shared) {w : Word}
    {answered : Response × Board}
    (result : b.transact? .supervisor d.selectBlock (.writeWord 0 w) = some answered) :
    answered.2.owner d = (if w.toNat < d.masters.size then w.toNat else 0) ∧
      ∀ other, other ≠ d → answered.2.owner other = b.owner other := by
  have connects := reach.owner_of_selectLanes d result
  rwa [Lanes.mask_all, BitVec.and_allOnes] at connects

/-! ## The arbiter -/

/-- The arbiter in front of a shared device. -/
def Shared.arbiter (d : Shared) (id : Nat) : Arbiter :=
  { id, name := d.name, selection := d.selection }

/-- The supervisor's manifest leads to the arbiter in front of a shared device. -/
theorem Reachable.ofManifest_shared (reach : Reachable c b) (d : Shared) (id : Nat) :
    Arbiter.ofManifest id (b.manifest .supervisor) d.name = .ok (d.arbiter id) := by
  have named : d.selectRegion.name = s!"{d.name}_pi" := by cases d <;> decide
  have selection : RegisterRef.resolve (b.manifest .supervisor) s!"{d.name}_pi" "master_select" =
      .ok d.selection := by
    rw [← named]
    exact reach.resolve_register (reach.holds_selection d)
  exact congrArg (Except.map fun selection => Arbiter.mk id d.name selection) selection

/-- The driver cuts an index to the low bits before it writes the selection. -/
theorem Shared.toNat_selected (d : Shared) {master : Nat} (indexed : master < 2 ^ 32) :
    (BitVec.ofNat 32 master &&& widthMask d.selection.width).toNat = d.lowBits master := by
  have narrow : min d.selection.width 32 = (BusSwitch.controlLayout d.masters.size).widthAt 0 := by
    cases d <;> decide
  rw [toNat_and_widthMask, BitVec.toNat_ofNat, Nat.mod_eq_of_lt indexed, narrow]
  rfl

/-- The driver's write of an index to the selection in front of a device. -/
theorem Reachable.perform_select (reach : Reachable c b) (d : Shared) {master : Nat}
    (indexed : master < 2 ^ 32) :
    ∃ after : Board,
      (d.selection.set (BitVec.ofNat 32 master)).perform (View.mk .supervisor b) =
        (.ok (), View.mk .supervisor after) ∧
      Reachable c after ∧ after.owner d = d.connectedBy master ∧
      ∀ other, other ≠ d → after.owner other = b.owner other := by
  let write : Op := .writeWord d.selection.addr (BitVec.ofNat 32 master &&& widthMask d.selection.width)
  obtain ⟨answered, result, outcome⟩ := reach.perform_register (reach.holds_selection d) write rfl
  have ticked : Reachable c b.tick := .step .tick reach
  obtain ⟨connected, others⟩ := ticked.owner_of_select d result
  refine ⟨answered.2, RegisterRef.perform_set_of_granted rfl (View.writeWord_of_perform outcome),
    reach.of_perform outcome, ?_, ?_⟩
  · rw [connected, d.toNat_selected indexed]
    rfl
  · exact fun other apart => (others other apart).trans (owner_tick b other)

/-- An acquisition connects what the low bits of the index come to, and is granted if that is the master
that was asked for. -/
theorem Reachable.perform_acquire (reach : Reachable c b) (d : Shared) (id : Nat) {master : Nat}
    (indexed : master < 2 ^ 32) :
    ∃ after : Board,
      ((d.arbiter id).acquire master).perform (.connect (View.mk .supervisor b)) =
        (if d.connectedBy master = master then .ok ⟨d.arbiter id, master⟩
          else .error (.notOwner d.name (d.connectedBy master) master),
        .connect (View.mk .supervisor after)) ∧
      Reachable c after ∧ after.owner d = d.connectedBy master ∧
      ∀ other, other ≠ d → after.owner other = b.owner other := by
  obtain ⟨selected, written, current, connected, others⟩ := reach.perform_select d indexed
  obtain ⟨w, read, owned⟩ := (guards_selection c d id d.name).readWord current
  have owner := Arbiter.perform_owner_of_readWord read
  rw [owned, connected] at owner
  refine ⟨selected.tick, ?_, .step .tick current, (owner_tick selected d).trans connected,
    fun other apart => (owner_tick selected other).trans (others other apart)⟩
  have connects : ((d.arbiter id).connect master).perform (View.mk .supervisor b) =
      (if d.connectedBy master = master then .ok ⟨d.arbiter id, master⟩
        else .error (.notOwner d.name (d.connectedBy master) master),
      View.mk .supervisor selected.tick) := by
    unfold Arbiter.connect
    rw [if_neg (Nat.not_le.2 indexed)]
    refine (Action.perform_bind_of_ok written _).trans ((Action.perform_bind_of_ok owner _).trans ?_)
    split <;> rfl
  rw [Arbiter.acquire, Link.perform_locked, connects]
  rfl

/-! ## Masters that do not exist -/

/-- A master that does not exist is never granted. The device is left to the master that the low bits of
the index name, and to the supervisor only where they name it or name none; the other devices stay with
their owners. -/
theorem absent_master_is_refused (reach : Reachable c b) (d : Shared) (id : Nat) :
    ∃ arbiter, Arbiter.ofManifest id (b.manifest .supervisor) d.name = .ok arbiter ∧
      ∀ master, d.masters.size ≤ master → master < 2 ^ 32 → ∃ after : Board,
        (arbiter.acquire master).perform (.connect (View.mk .supervisor b)) =
          (.error (.notOwner d.name (d.connectedBy master) master),
            .connect (View.mk .supervisor after)) ∧
        Reachable c after ∧ after.owner d = d.connectedBy master ∧
        (after.owner d = supervisorMaster ↔ d.lowBits master = 0 ∨ d.masters.size ≤ d.lowBits master) ∧
        ∀ other, other ≠ d → after.owner other = b.owner other := by
  refine ⟨d.arbiter id, reach.ofManifest_shared d id, fun master absent indexed => ?_⟩
  obtain ⟨after, acquires, current, connected, others⟩ := reach.perform_acquire d id indexed
  have another : d.connectedBy master ≠ master := fun same =>
    absurd (same ▸ d.connectedBy_lt master) (Nat.not_lt.2 absent)
  rw [if_neg another] at acquires
  exact ⟨after, acquires, current, connected, connected.symm ▸ d.connectedBy_eq_supervisor_iff master,
    others⟩

/-- All bits of the selection in front of the DAC are used by the index 7, which names none of the three
masters. -/
theorem seventh_master_connects_supervisor : ∃ b after arbiter, assemble .standard = .ok b ∧
    Arbiter.ofManifest 0 (b.manifest .supervisor) "dac0" = .ok arbiter ∧
    (arbiter.acquire 7).perform (.connect (View.mk .supervisor b)) =
      (.error (.notOwner "dac0" 0 7), .connect (View.mk .supervisor after)) ∧
    after.owner .dac0 = supervisorMaster := by
  obtain ⟨b, assembled⟩ := assemble_standard
  obtain ⟨arbiter, named, refuses⟩ := absent_master_is_refused (.assembled assembled) .dac0 0
  obtain ⟨after, acquires, -, connected, -⟩ := refuses 7 (by decide) (by decide)
  exact ⟨b, after, arbiter, assembled, named, acquires, connected⟩

/-- The index 5 names no master of the DAC, but its low bits name the co-processor. -/
theorem fifth_master_connects_coprocessor : ∃ b after arbiter, assemble .standard = .ok b ∧
    Arbiter.ofManifest 0 (b.manifest .supervisor) "dac0" = .ok arbiter ∧
    (arbiter.acquire 5).perform (.connect (View.mk .supervisor b)) =
      (.error (.notOwner "dac0" 1 5), .connect (View.mk .supervisor after)) ∧
    after.owner .dac0 = coprocessorMaster ∧ coprocessorMaster ≠ supervisorMaster := by
  obtain ⟨b, assembled⟩ := assemble_standard
  have reach : Reachable .standard b := .assembled assembled
  obtain ⟨after, acquires, -, connected, -⟩ :=
    reach.perform_acquire .dac0 0 (show 5 < 2 ^ 32 by decide)
  exact ⟨b, after, _, assembled, reach.ofManifest_shared .dac0 0, acquires, connected, by decide⟩

end InstrumentBus.Board
