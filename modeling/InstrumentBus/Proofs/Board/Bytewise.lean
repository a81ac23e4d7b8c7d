import InstrumentBus.Proofs.Word.Window
import InstrumentBus.Proofs.Board.Acquiring

/-!
# Writing a selection byte by byte

The selection in front of a device is one word, and the supervisor can write each of its four bytes. The
selection does not keep the bytes outside the enabled lanes, so a byte that is written decides by itself:
only the least significant one can connect a master other than the first
(`Reachable.writeByte_select`). An index that is written byte by byte therefore arrives only if this byte
is written last (`Reachable.owner_writeBytes`), whatever the selection was before.
-/

namespace InstrumentBus

/-! ## Bytes of small numbers -/

/-- A number below 256 is its least significant byte. -/
theorem Word.byte_ofNat_zero {n : Nat} (small : n < 256) : (byte (BitVec.ofNat 32 n) 0).toNat = n := by
  rw [byte, Nat.mul_zero, BitVec.ushiftRight_zero, BitVec.toNat_setWidth, BitVec.toNat_ofNat]
  omega

theorem Word.byte_ofNat_of_ne {n j : Nat} (small : n < 256) (other : j ≠ 0) :
    byte (BitVec.ofNat 32 n) j = 0 := by
  have first : 2 ^ 8 ≤ 2 ^ (8 * j) := Nat.pow_le_pow_right (by decide) (by omega)
  have below : n < 2 ^ (8 * j) := by omega
  have whole : n % 2 ^ 32 = n := Nat.mod_eq_of_lt (by omega)
  apply BitVec.eq_of_toNat_eq
  rw [byte, BitVec.toNat_setWidth, BitVec.toNat_ushiftRight, BitVec.toNat_ofNat, whole, Nat.shiftRight_eq_div_pow,
    Nat.div_eq_of_lt below]
  rfl

/-- On a switch with few masters, a byte connects one that is not the first only in the first place. -/
theorem BusSwitch.selectedBy_ofByteAt {count i : Nat} (few : count ≤ 256) (v : Byte) (inWord : i < 4) :
    selectedBy count (Word.ofByteAt v i) = if i = 0 ∧ v.toNat < count then v.toNat else 0 := by
  rw [selectedBy, Word.toNat_ofByteAt v inWord]
  by_cases first : i = 0
  · subst first
    simp
  · obtain rfl | rfl | rfl : i = 1 ∨ i = 2 ∨ i = 3 := by omega
    all_goals
      simp only [first, false_and, if_false]
      split
      · omega
      · rfl

namespace Board

variable {c : Config} {b : Board} {d : Shared} {i : Nat}

/-! ## The bytes of a selection -/

/-- Where the supervisor sees byte `i` of the selection in front of a device. -/
def Shared.selectByte (d : Shared) (i : Nat) : Addr :=
  d.selectRegion.origin + BitVec.ofNat 32 i

theorem Shared.selectByte_place (d : Shared) (inWord : i < 4) :
    (d.selectByte i).wordBase = d.selectRegion.origin ∧ (d.selectByte i).byteIndex = i := by
  obtain rfl | rfl | rfl | rfl : i = 0 ∨ i = 1 ∨ i = 2 ∨ i = 3 := by omega
  all_goals cases d <;> decide

/-- An access to a byte of the selection is a transaction on the selection, one step of the board later. -/
theorem Reachable.perform_selectByte (reach : Reachable c b) (d : Shared) (op : Op) (aligned : op.Aligned)
    (inWord : i < 4) (place : op.addr = d.selectByte i) :
    ∃ answered,
      b.tick.transact? .supervisor d.selectBlock (op.request.relocate 0) = some answered ∧
      b.perform .supervisor op = (.ok (op.result answered.1.data), answered.2) := by
  have here := reach.holds_selection d
  have inside : d.selectRegion.origin ∈ d.selectRegion := by
    have first : d.selectRegion.origin + Layout.offset 0 ∈ d.selectRegion :=
      here.mem_span (reach.arranged _) (reach.banked _) (show 0 < 4 by decide)
    rwa [show Layout.offset 0 = 0#32 from rfl, BitVec.add_zero] at first
  have offset : d.selectRegion.offsetOf d.selectRegion.origin = 0 := by
    rw [AddressMap.Region.offsetOf_eq_sub ((reach.arranged _).placed here.present) inside]
    exact BitVec.sub_self _
  have base : op.addr.wordBase = d.selectRegion.origin := by
    rw [place]
    exact (d.selectByte_place inWord).1
  obtain ⟨answered, result, outcome⟩ := reach.perform_of_mem op here.present (base ▸ inside) aligned
  rw [base, offset] at result
  exact ⟨answered, result, outcome⟩

/-- A byte of the selection reads as that byte of the owner's index. -/
theorem Reachable.readByte_select (reach : Reachable c b) (d : Shared) (inWord : i < 4) :
    Transport.readByte (View.mk .supervisor b) (d.selectByte i) =
      (.ok (Word.byte (BitVec.ofNat 32 (b.owner d)) i), View.mk .supervisor b.tick) := by
  obtain ⟨answered, result, outcome⟩ :=
    reach.perform_selectByte d (.readByte (d.selectByte i)) (fun word => by cases word) inWord rfl
  obtain ⟨w, connected, reads⟩ := transact?_select b.tick d
  have index : w = BitVec.ofNat 32 (b.owner d) := by
    rw [← owner_tick, ← connected, BitVec.ofNat_toNat, BitVec.setWidth_eq]
  cases reads.symm.trans result
  refine View.readByte_of_perform (outcome.trans ?_)
  rw [index, Op.result, (d.selectByte_place inWord).2]
  rfl

/-- A byte that is written to the selection decides by itself which master is connected. -/
theorem Reachable.writeByte_select (reach : Reachable c b) (d : Shared) (inWord : i < 4) (v : Byte) :
    ∃ after : Board,
      Transport.writeByte (View.mk .supervisor b) (d.selectByte i) v = (.ok (), View.mk .supervisor after) ∧
      Reachable c after ∧
      after.owner d = (if i = 0 ∧ v.toNat < d.masters.size then v.toNat else supervisorMaster) ∧
      ∀ other, other ≠ d → after.owner other = b.owner other := by
  obtain ⟨answered, result, outcome⟩ :=
    reach.perform_selectByte d (.writeByte (d.selectByte i) v) (fun word => by cases word) inWord rfl
  have ticked : Reachable c b.tick := .step .tick reach
  obtain ⟨connected, others⟩ := ticked.owner_of_selectLanes d result
  have few : d.masters.size ≤ 256 := Nat.le_trans d.size_masters_le (by decide)
  refine ⟨answered.2, View.writeByte_of_perform outcome, reach.of_perform outcome, ?_,
    fun other apart => (others other apart).trans (owner_tick b other)⟩
  rw [connected, Addr.lane, (d.selectByte_place inWord).2, Word.ofByteAt_and_mask v inWord,
    BusSwitch.selectedBy_ofByteAt few v inWord]
  rfl

/-- A byte that is written to the selection leaves the others as they are if it is the least significant one, or
if the first master was connected. -/
theorem byte_kept_iff {count old v : Nat} (few : count ≤ 256) (current : old < count) :
    (∀ j < 4, j ≠ i → Word.byte (BitVec.ofNat 32 (if i = 0 ∧ v < count then v else supervisorMaster)) j =
        Word.byte (BitVec.ofNat 32 old) j) ↔ i = 0 ∨ old = supervisorMaster := by
  by_cases first : i = 0
  · have small : (if i = 0 ∧ v < count then v else supervisorMaster) < 256 := by
      unfold supervisorMaster
      split <;> omega
    refine iff_of_true (fun j _ other => ?_) (.inl first)
    rw [Word.byte_ofNat_of_ne small (first ▸ other), Word.byte_ofNat_of_ne (by omega) (first ▸ other)]
  · simp only [first, false_and, if_false, false_or]
    constructor
    · intro kept
      have lowest := congrArg BitVec.toNat (kept 0 (by decide) (Ne.symm first))
      rw [Word.byte_ofNat_zero (by decide), Word.byte_ofNat_zero (by omega)] at lowest
      exact lowest.symm
    · rintro rfl j - -
      rfl

/-! ## An index byte by byte -/

/-- The supervisor writes bytes of a word to their places in the selection, in turn. -/
def Shared.writeBytes (d : Shared) (w : Word) (v : View) (places : List Nat) : View :=
  places.foldl (fun v i => (Transport.writeByte v (d.selectByte i) (Word.byte w i)).2) v

theorem Reachable.writeBytes (reach : Reachable c b) (d : Shared) (w : Word) (places : List Nat) :
    ∃ after : Board, d.writeBytes w (View.mk .supervisor b) places = View.mk .supervisor after ∧
      Reachable c after := by
  induction places generalizing b with
  | nil => exact ⟨b, rfl, reach⟩
  | cons i rest ih => exact ih (.step (.access .supervisor (.writeByte (d.selectByte i) (Word.byte w i))) reach)

/-- A whole word connects the master of its index, whatever was connected before. Of the same index byte by byte,
the last byte decides. -/
theorem Reachable.owner_writeBytes (reach : Reachable c b) (d : Shared) {master : Nat}
    (present : master < d.masters.size) (places : List Nat) (inWord : i < 4) :
    ∃ whole parts : Board,
      Transport.writeWord (View.mk .supervisor b) (d.selectByte 0) (BitVec.ofNat 32 master) =
        (.ok (), View.mk .supervisor whole) ∧ whole.owner d = master ∧
      d.writeBytes (BitVec.ofNat 32 master) (View.mk .supervisor b) (places ++ [i]) =
        View.mk .supervisor parts ∧ parts.owner d = if i = 0 then master else supervisorMaster := by
  have few : d.masters.size ≤ 256 := Nat.le_trans d.size_masters_le (by decide)
  obtain ⟨answered, result, wrote⟩ :=
    reach.writeWord_register (reach.holds_selection d) (BitVec.ofNat 32 master)
  have ticked : Reachable c b.tick := .step .tick reach
  obtain ⟨connected, -⟩ := ticked.owner_of_select d result
  have index : (BitVec.ofNat 32 master).toNat = master := by
    rw [BitVec.toNat_ofNat]
    omega
  rw [index, if_pos present] at connected
  obtain ⟨before, written, current⟩ := reach.writeBytes d (BitVec.ofNat 32 master) places
  obtain ⟨after, last, -, owner, -⟩ :=
    current.writeByte_select d inWord (Word.byte (BitVec.ofNat 32 master) i)
  refine ⟨answered.2, after, wrote, connected, ?_, ?_⟩
  · rw [Shared.writeBytes] at written ⊢
    rw [List.foldl_append, written, List.foldl_cons, last, List.foldl_nil]
  · rw [owner]
    by_cases first : i = 0
    · rw [first, Word.byte_ofNat_zero (by omega), if_pos ⟨rfl, present⟩, if_pos rfl]
    · rw [if_neg first, if_neg fun both => first both.1]

/-! ## What a part of a word selects -/

/-- A write to the selection of a switch connects the master that the enabled lanes name by themselves, which is
not always the one that the old selection with these lanes replaced would name. On a board a byte of a selection
decides by itself. It keeps the other three bytes exactly if it is the least significant one or the first master
was connected. An index that is written byte by byte has the effect of its word if the least significant byte
comes last, and connects the first master otherwise. -/
theorem written_byte_decides_alone {σ : Type} [Target σ] [Clocked σ] (masters : Array String) (device : σ)
    (populated : 1 ≤ masters.size) (indexed : masters.size < 2 ^ 32) (reach : Reachable c b) (d : Shared) :
    (∃ s, BusSwitch.build masters device = .ok s ∧ ∀ ops : List BusSwitch.Op,
      (∀ data lanes,
        ((s.run ops).transactControl (.write 0 data lanes)).2.active =
          BusSwitch.selectedBy masters.size (data &&& lanes.mask) ∧
        (BusSwitch.selectedBy masters.size (data &&& lanes.mask) =
            BusSwitch.selectedBy masters.size (Word.merge ((s.run ops).control.value 0) data lanes.mask) ↔
          (s.run ops).control.value 0 &&& ~~~lanes.mask = 0 ∨ masters.size ≤ (data &&& lanes.mask).toNat)) ∧
      ∀ w places k, k < 4 → ((s.run ops).run (BusSwitch.byteWrites w (places ++ [k]))).active =
        BusSwitch.selectedBy masters.size (w &&& Lanes.mask (1#4 <<< k))) ∧
    (∀ i < 4, ∀ v, ∃ after : Board,
      Transport.writeByte (View.mk .supervisor b) (d.selectByte i) v = (.ok (), View.mk .supervisor after) ∧
      Reachable c after ∧
      after.owner d = (if i = 0 ∧ v.toNat < d.masters.size then v.toNat else supervisorMaster) ∧
      (∀ other, other ≠ d → after.owner other = b.owner other) ∧
      ((∀ j < 4, j ≠ i → (Transport.readByte (View.mk .supervisor after) (d.selectByte j)).1 =
          (Transport.readByte (View.mk .supervisor b) (d.selectByte j)).1) ↔
        i = 0 ∨ b.owner d = supervisorMaster)) ∧
    (∀ master < d.masters.size, ∀ places, ∀ i < 4, ∃ whole parts : Board,
      Transport.writeWord (View.mk .supervisor b) (d.selectByte 0) (BitVec.ofNat 32 master) =
        (.ok (), View.mk .supervisor whole) ∧ whole.owner d = master ∧
      d.writeBytes (BitVec.ofNat 32 master) (View.mk .supervisor b) (places ++ [i]) =
        View.mk .supervisor parts ∧ parts.owner d = if i = 0 then master else supervisorMaster) := by
  refine ⟨BusSwitch.lanes_select masters device populated indexed, fun i inWord v => ?_,
    fun master present places i inWord => reach.owner_writeBytes d present places inWord⟩
  obtain ⟨after, writes, current, owner, others⟩ := reach.writeByte_select d inWord v
  refine ⟨after, writes, current, owner, others, ?_⟩
  have few : d.masters.size ≤ 256 := Nat.le_trans d.size_masters_le (by decide)
  rw [← byte_kept_iff few (reach.owner_lt d) (v := v.toNat), ← owner]
  apply forall_congr'
  intro j
  apply forall_congr'
  intro place
  rw [current.readByte_select d place, reach.readByte_select d place]
  simp only [Except.ok.injEq]

/-- On the usual board the player is connected by the word of its index, but not by the bytes of the index in
ascending order. -/
theorem player_index_arrives_as_word : ∃ b whole parts : Board, assemble .standard = .ok b ∧
    Transport.writeWord (View.mk .supervisor b) 0x2200 2 = (.ok (), View.mk .supervisor whole) ∧
    whole.owner .dac0 = dacPlayerMaster ∧
    Shared.dac0.writeBytes 2 (View.mk .supervisor b) [0, 1, 2, 3] = View.mk .supervisor parts ∧
    parts.owner .dac0 = supervisorMaster := by
  obtain ⟨b, assembled⟩ := assemble_standard
  have used := written_byte_decides_alone #["supervisor", "player"] (Ram.zero 4) (by decide) (by decide)
    (.assembled assembled) .dac0
  obtain ⟨whole, parts, wrote, connected, written, owner⟩ := used.2.2 2 (by decide) [0, 1, 2] 3 (by decide)
  exact ⟨b, whole, parts, assembled, wrote, connected, written, owner⟩

/-- The player owns the DAC of the usual board, and its index is in byte 0 of the selection. A zero that is written
to byte 1 sets byte 0 to zero and hands the DAC to the supervisor, where the player would keep it if the other
bytes kept their values. -/
theorem neighbouring_byte_takes_dac : ∃ b owned after : Board, assemble .standard = .ok b ∧
    Transport.writeWord (View.mk .supervisor b) 0x2200 2 = (.ok (), View.mk .supervisor owned) ∧
    Transport.writeByte (View.mk .supervisor owned) 0x2201 0 = (.ok (), View.mk .supervisor after) ∧
    owned.owner .dac0 = dacPlayerMaster ∧
    BusSwitch.selectedBy dac0Masters.size (Word.merge 2 0 (Lanes.mask 0b0010)) = dacPlayerMaster ∧
    after.owner .dac0 = supervisorMaster ∧
    (Transport.readByte (View.mk .supervisor owned) 0x2200).1 = .ok 2 ∧
    (Transport.readByte (View.mk .supervisor after) 0x2200).1 = .ok 0 := by
  obtain ⟨b, assembled⟩ := assemble_standard
  have reach : Reachable .standard b := .assembled assembled
  obtain ⟨answered, result, outcome⟩ := reach.perform_selectByte .dac0 (.writeWord 0x2200 2)
    (fun _ => by decide) (show 0 < 4 by decide) rfl
  obtain ⟨owner, -⟩ := Reachable.owner_of_select (.step .tick reach) .dac0 result
  have owned : Reachable .standard answered.2 := reach.of_perform outcome
  obtain ⟨after, writes, current, connected, -⟩ := owned.writeByte_select .dac0 (show 1 < 4 by decide) 0
  refine ⟨b, answered.2, after, assembled, View.writeWord_of_perform outcome, writes, owner, by decide, connected,
    ?_, ?_⟩
  · have reads := owned.readByte_select .dac0 (show 0 < 4 by decide)
    rw [owner] at reads
    exact congrArg Prod.fst reads
  · have reads := current.readByte_select .dac0 (show 0 < 4 by decide)
    rw [connected] at reads
    exact congrArg Prod.fst reads

end Board

end InstrumentBus
