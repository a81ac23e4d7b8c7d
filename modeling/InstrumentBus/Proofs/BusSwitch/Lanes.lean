import InstrumentBus.Proofs.BusSwitch.Exclusion
import InstrumentBus.Proofs.Ram.Bytes

/-!
# Lanes of a selection

A write to the selection of a switch may enable any of the four byte lanes. A register file keeps the bytes
outside the enabled lanes, but the selection does not: the bytes that a write leaves out count as zero, and
the master of that index is connected (`active_write`). That comes to the same as keeping them only where
nothing of the old selection lies outside the lanes, or where the enabled bytes name no master by themselves
(`selectedBy_merge_eq_iff`). Of an index that is written byte by byte the last byte alone counts
(`active_run_bytes`).
-/

namespace InstrumentBus

/-! ## Merged words -/

/-- A merged word is the sum of what is kept of the old word and what is taken of the new one. -/
theorem Word.toNat_merge (old new mask : Word) :
    (merge old new mask).toNat = (old &&& ~~~mask).toNat + (new &&& mask).toNat := by
  have apart : (old &&& ~~~mask) &&& (new &&& mask) = 0#32 := by
    rw [BitVec.and_comm new, BitVec.and_assoc, ← BitVec.and_assoc (~~~mask), BitVec.and_comm (~~~mask),
      BitVec.and_not_self]
    simp
  rw [merge, ← BitVec.add_eq_or_of_and_eq_zero _ _ apart, BitVec.toNat_add_of_and_eq_zero apart]

/-- A part of a word is not greater than the word. -/
theorem Word.toNat_and_le (w mask : Word) : (w &&& mask).toNat ≤ w.toNat := by
  rw [BitVec.toNat_and]
  exact Nat.and_le_left

theorem Word.ofByteAt_and_mask (v : Byte) {k : Nat} (inWord : k < 4) :
    ofByteAt v k &&& Lanes.mask (1#4 <<< k) = ofByteAt v k := by
  have low : v.setWidth 32 &&& 0xFF#32 = v.setWidth 32 := by
    apply BitVec.eq_of_toNat_eq
    have small : v.toNat < 2 ^ 8 := v.isLt
    rw [BitVec.toNat_and, BitVec.toNat_setWidth, Nat.mod_eq_of_lt (by omega)]
    exact (Nat.and_two_pow_sub_one_eq_mod _ 8).trans (Nat.mod_eq_of_lt small)
  rw [Lanes.mask_single inWord, ofByteAt, ← BitVec.shiftLeft_and_distrib, low]

theorem Word.toNat_ofByteAt (v : Byte) {k : Nat} (inWord : k < 4) :
    (ofByteAt v k).toNat = v.toNat * 2 ^ (8 * k) := by
  have small : v.toNat < 2 ^ 8 := v.isLt
  have widened : (v.setWidth 32).toNat = v.toNat := by
    rw [BitVec.toNat_setWidth]
    exact Nat.mod_eq_of_lt (by omega)
  rw [ofByteAt, BitVec.toNat_shiftLeft, widened, Nat.shiftLeft_eq]
  apply Nat.mod_eq_of_lt
  obtain rfl | rfl | rfl | rfl : k = 0 ∨ k = 1 ∨ k = 2 ∨ k = 3 := by omega
  all_goals omega

/-- The byte of a word, in its place, is what the lane of the byte lets through. -/
theorem Word.ofByteAt_byte (w : Word) {k : Nat} (inWord : k < 4) :
    ofByteAt (byte w k) k = w &&& Lanes.mask (1#4 <<< k) := by
  have ones (j : Nat) : (0xFF#32).getLsbD j = decide (j < 8) := by
    rw [BitVec.getLsbD_ofNat, show 0xFF = 2 ^ 8 - 1 from rfl, Nat.testBit_two_pow_sub_one, ← Bool.decide_and]
    exact decide_eq_decide.2 (by omega)
  apply BitVec.eq_of_getLsbD_eq
  intro i inside
  rw [Lanes.mask_single inWord, ofByteAt, byte, BitVec.getLsbD_and, BitVec.getLsbD_shiftLeft,
    BitVec.getLsbD_shiftLeft, BitVec.getLsbD_setWidth, BitVec.getLsbD_setWidth, BitVec.getLsbD_ushiftRight, ones]
  by_cases below : i < 8 * k
  · simp [below]
  · rw [Nat.add_sub_cancel' (by omega : 8 * k ≤ i)]
    by_cases above : i - 8 * k < 8
    · simp [below, above, inside, show i - 8 * k < 32 by omega]
    · simp [above]

namespace BusSwitch

variable {σ : Type} {s : BusSwitch σ}

/-- The master that a selection of `w` connects on a switch with `count` masters: the one of that index, or
the first if there is none. -/
def selectedBy (count : Nat) (w : Word) : Nat :=
  if w.toNat < count then w.toNat else 0

theorem active_write (current : s.active < s.count) (data : Word) (lanes : Lanes) :
    (s.transactControl (.write 0 data lanes)).2.active = selectedBy s.count (data &&& lanes.mask) := by
  rw [active_transactControl current]
  unfold ownerAfter
  exact if_pos rfl

/-- To take the bytes outside the enabled lanes for zeros comes to the same as to keep them exactly if there
is nothing to keep, or if the enabled bytes name no master by themselves. -/
theorem selectedBy_merge_eq_iff {count : Nat} {old : Word} (current : old.toNat < count) (data mask : Word) :
    selectedBy count (data &&& mask) = selectedBy count (Word.merge old data mask) ↔
      old &&& ~~~mask = 0 ∨ count ≤ (data &&& mask).toNat := by
  have kept : (old &&& ~~~mask).toNat < count := Nat.lt_of_le_of_lt (Word.toNat_and_le _ _) current
  have none : old &&& ~~~mask = 0 ↔ (old &&& ~~~mask).toNat = 0 :=
    ⟨fun zero => congrArg BitVec.toNat zero, fun zero => BitVec.eq_of_toNat_eq zero⟩
  rw [none, selectedBy, selectedBy, Word.toNat_merge]
  -- the merged word exceeds what is taken by what is kept, and what is kept is no master's index too many
  split <;> split <;> omega

/-! ## An index byte by byte -/

variable [Target σ] [Clocked σ]

/-- The writes of the bytes of a word to some places of the selection, in turn. -/
def byteWrites (w : Word) (places : List Nat) : List Op :=
  places.map fun k => .control (.write 0 (Word.ofByteAt (Word.byte w k) k) (1#4 <<< k))

/-- Of the bytes that are written to the selection in turn, only the last one counts, in its place. -/
theorem active_run_byteWrites (current : s.active < s.count) (few : s.count < 2 ^ 32) (w : Word)
    (places : List Nat) {k : Nat} (inWord : k < 4) :
    (s.run (byteWrites w (places ++ [k]))).active = selectedBy s.count (w &&& Lanes.mask (1#4 <<< k)) := by
  obtain ⟨present, same⟩ := run_active_lt current few (byteWrites w places)
  have parted : s.run (byteWrites w (places ++ [k])) =
      ((s.run (byteWrites w places)).transactControl
        (.write 0 (Word.ofByteAt (Word.byte w k) k) (1#4 <<< k))).2 := by
    rw [byteWrites, List.map_append, run, List.foldl_append]
    rfl
  rw [parted, active_write present, same, Word.ofByteAt_and_mask _ inWord, Word.ofByteAt_byte w inWord]

/-- However a switch is used from its assembly on, a write to the selection connects the master that the enabled
lanes name by themselves. -/
theorem lanes_select (masters : Array String) (device : σ) (populated : 1 ≤ masters.size)
    (indexed : masters.size < 2 ^ 32) :
    ∃ s, build masters device = .ok s ∧ ∀ ops : List Op,
      (∀ data lanes,
        ((s.run ops).transactControl (.write 0 data lanes)).2.active =
          selectedBy masters.size (data &&& lanes.mask) ∧
        (selectedBy masters.size (data &&& lanes.mask) =
            selectedBy masters.size (Word.merge ((s.run ops).control.value 0) data lanes.mask) ↔
          (s.run ops).control.value 0 &&& ~~~lanes.mask = 0 ∨ masters.size ≤ (data &&& lanes.mask).toNat)) ∧
      ∀ w places k, k < 4 → ((s.run ops).run (byteWrites w (places ++ [k]))).active =
        selectedBy masters.size (w &&& Lanes.mask (1#4 <<< k)) := by
  obtain ⟨s, built, size, first, -⟩ := build_spec device populated
  refine ⟨s, built, fun ops => ?_⟩
  obtain ⟨range, same⟩ := run_active_lt (s := s) (by omega) (by omega) ops
  have count : (s.run ops).count = masters.size := same.trans size
  refine ⟨fun data lanes => ⟨?_, ?_⟩, fun w places k inWord => ?_⟩
  · rw [active_write range, count]
  · exact selectedBy_merge_eq_iff (count ▸ range) data lanes.mask
  · rw [active_run_byteWrites range (by omega) w places inWord, count]

end BusSwitch

end InstrumentBus
