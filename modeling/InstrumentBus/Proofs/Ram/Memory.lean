import InstrumentBus.Proofs.Ram.Bytes
import InstrumentBus.Transport.Memory

/-!
# RAMs and plain memories

A plain memory keeps bytes one by one, and a RAM keeps words. `Memory.Images` says that a memory holds the bytes
of a RAM from some address on. An access to the memory then delivers what the corresponding transaction of the
RAM delivers, and the memory holds the bytes of the RAM afterwards, whether a byte or a word was written.
-/

namespace InstrumentBus

namespace Memory

variable {m : Memory} {addr : Addr} {w : Word} {v : Byte}

/-! ## Bytes of a memory -/

theorem byte_of_byte? {a : Nat} (held : m.byte? a = some v) : m.byte a = .ok v := by
  rw [byte, held]

theorem backs_store (m : Memory) (a : Nat) (v : Byte) (j : Nat) : (m.store a v).backs j = m.backs j :=
  rfl

/-- Storing a byte sets it where the memory backs its address. -/
theorem byte?_store {a : Nat} (backed : m.backs a = true) (v : Byte) (j : Nat) :
    (m.store a v).byte? j = if j = a then some v else m.byte? j := by
  by_cases here : j = a
  · subst here
    rw [byte?, backs_store, if_pos backed, if_pos rfl, store, Std.HashMap.getD_insert_self]
  · have other : ¬(a == j) = true := fun equal => here (beq_iff_eq.1 equal).symm
    rw [byte?, byte?, backs_store, if_neg here, store, Std.HashMap.getD_insert, if_neg other]

theorem backs_of_byte? {a : Nat} (held : m.byte? a = some v) : m.backs a = true := by
  rw [byte?] at held
  split at held
  · next backed => exact backed
  · cases held

/-- The bytes of a range lie where its first address plus their index comes to, which may wrap around. -/
theorem mem_wrapped_iff {origin : Addr} {size : Word} {a : Nat} :
    (∃ part ∈ wrapped origin size, part.1 ≤ a ∧ a < part.1 + part.2) ↔
      ∃ i < size.toNat, (origin + BitVec.ofNat 32 i).toNat = a := by
  have within := origin.isLt
  have few := size.isLt
  have place (i : Nat) (short : i < size.toNat) :
      (origin + BitVec.ofNat 32 i).toNat = (origin.toNat + i) % 2 ^ 32 := by
    rw [BitVec.toNat_add, BitVec.toNat_ofNat, Nat.add_mod_mod]
  have parts : (∃ part ∈ wrapped origin size, part.1 ≤ a ∧ a < part.1 + part.2) ↔
      (origin.toNat ≤ a ∧ a < origin.toNat + min size.toNat (2 ^ 32 - origin.toNat)) ∨
        a < size.toNat - (2 ^ 32 - origin.toNat) := by
    simp [wrapped]
  rw [parts]
  constructor
  · rintro (⟨above, below⟩ | below)
    · exact ⟨a - origin.toNat, by omega, by rw [place _ (by omega)]; omega⟩
    · exact ⟨a + 2 ^ 32 - origin.toNat, by omega, by rw [place _ (by omega)]; omega⟩
  · rintro ⟨i, short, rfl⟩
    rw [place i short]
    omega

/-- A fresh memory backs the bytes of its ranges. -/
theorem backs_iff_of_ranges {ranges : List (Addr × Word)} (made : m.ranges = (ofRanges ranges).ranges) (a : Nat) :
    m.backs a = true ↔ ∃ r ∈ ranges, ∃ i < r.2.toNat, (r.1 + BitVec.ofNat 32 i).toNat = a := by
  rw [backs, made, ofRanges, List.any_flatMap, List.any_eq_true]
  refine exists_congr fun r => and_congr_right fun _ => ?_
  rw [← mem_wrapped_iff, List.any_eq_true]
  simp only [Bool.and_eq_true, decide_eq_true_eq]

/-- A fresh memory holds zeros in the ranges that it backs. -/
theorem byte?_ofRanges {ranges : List (Addr × Word)} {origin : Addr} {size : Word}
    (backed : (origin, size) ∈ ranges) {i : Nat} (inside : i < size.toNat) :
    (ofRanges ranges).byte? (origin + BitVec.ofNat 32 i).toNat = some 0 := by
  have present := (backs_iff_of_ranges rfl _).2 ⟨_, backed, i, inside, rfl⟩
  rw [byte?, if_pos present]
  exact congrArg some Std.HashMap.getD_empty

/-! ## Words of a memory -/

theorem toNat_wordLimit (below : addr.toNat + 4 < 2 ^ 32) : (wordLimit addr).toNat = addr.toNat + 4 := by
  have four : (4 : Addr).toNat = 4 := rfl
  rw [wordLimit, BitVec.toNat_add, four, Nat.mod_eq_of_lt below]

/-- A word that ends inside the address space has four addresses. -/
theorem wordAddresses_eq (below : addr.toNat + 4 < 2 ^ 32) :
    wordAddresses addr = [addr.toNat, addr.toNat + 1, addr.toNat + 2, addr.toNat + 3] := by
  rw [wordAddresses, toNat_wordLimit below, Nat.add_sub_cancel_left]
  rfl

theorem getLsbD_ofBytes_cons (v : Byte) (bytes : List Byte) {i : Nat} (inWord : i < 32) :
    (ofBytes (v :: bytes)).getLsbD i = if i < 8 then v.getLsbD i else (ofBytes bytes).getLsbD (i - 8) := by
  show ((ofBytes bytes <<< 8) ||| v.setWidth 32).getLsbD i = _
  rw [BitVec.getLsbD_or, BitVec.getLsbD_shiftLeft, BitVec.getLsbD_setWidth, decide_eq_true inWord,
    Bool.true_and, Bool.true_and]
  by_cases low : i < 8
  · rw [if_pos low, decide_eq_true low]
    simp
  · rw [if_neg low, decide_eq_false low, BitVec.getLsbD_of_ge v i (by omega)]
    simp

/-- Bytes of a word that are put together show the bits that they showed in the word. -/
theorem getLsbD_ofBytes_range' (w : Word) {count first i : Nat} (few : count ≤ 4) (low : i < 8 * count) :
    (ofBytes ((List.range' first count).map w.byte)).getLsbD i = w.getLsbD (8 * first + i) := by
  induction count generalizing first i with
  | zero => omega
  | succ count ih =>
    rw [List.range'_succ, List.map_cons, getLsbD_ofBytes_cons _ _ (by omega)]
    by_cases inByte : i < 8
    · rw [if_pos inByte, Word.getLsbD_byte _ _ inByte]
    · rw [if_neg inByte, ih (by omega) (by omega)]
      congr 1
      omega

/-- A word is put together from its bytes. -/
theorem ofBytes_bytes (w : Word) : ofBytes [w.byte 0, w.byte 1, w.byte 2, w.byte 3] = w := by
  apply BitVec.eq_of_getLsbD_eq
  intro i inWord
  have bit : (ofBytes ((List.range' 0 4).map w.byte)).getLsbD i = w.getLsbD (8 * 0 + i) :=
    getLsbD_ofBytes_range' w (Nat.le_refl 4) inWord
  rwa [Nat.mul_zero, Nat.zero_add] at bit

/-- The memory holds the bytes of a word at an address, and the word ends inside the address space. -/
structure HoldsWord (m : Memory) (addr : Addr) (w : Word) : Prop where
  below : addr.toNat + 4 < 2 ^ 32
  bytes : ∀ k < 4, m.byte? (addr.toNat + k) = some (w.byte k)

theorem HoldsWord.mapM_byte (held : m.HoldsWord addr w) :
    (wordAddresses addr).mapM m.byte = .ok [w.byte 0, w.byte 1, w.byte 2, w.byte 3] := by
  have delivered (k : Nat) (inWord : k < 4) : m.byte (addr.toNat + k) = .ok (w.byte k) :=
    byte_of_byte? (held.bytes k inWord)
  have first : m.byte addr.toNat = .ok (w.byte 0) := delivered 0 (by decide)
  rw [wordAddresses_eq held.below]
  simp only [List.mapM_cons, List.mapM_nil, first, delivered 1 (by decide), delivered 2 (by decide),
    delivered 3 (by decide)]
  rfl

theorem HoldsWord.readWord (held : m.HoldsWord addr w) (aligned : addr.Aligned) :
    m.readWord addr = .ok w := by
  rw [Memory.readWord, if_pos aligned, held.mapM_byte]
  exact congrArg Except.ok (ofBytes_bytes w)

theorem HoldsWord.writeWord (held : m.HoldsWord addr w) (aligned : addr.Aligned) (new : Word) :
    m.writeWord addr new = .ok (m.storeWord addr new) := by
  rw [Memory.writeWord, if_pos aligned, held.mapM_byte]
  rfl

/-- Storing a word sets its bytes. -/
theorem HoldsWord.byte?_storeWord (held : m.HoldsWord addr w) (new : Word) (j : Nat) :
    (m.storeWord addr new).byte? j =
      if addr.toNat ≤ j ∧ j < addr.toNat + 4 then some (new.byte (j - addr.toNat)) else m.byte? j := by
  have backed (k : Nat) (inWord : k < 4) : m.backs (addr.toNat + k) = true :=
    backs_of_byte? (held.bytes k inWord)
  have first : m.backs addr.toNat = true := backed 0 (by decide)
  have stored : m.storeWord addr new = (((m.store addr.toNat (new.byte 0)).store (addr.toNat + 1)
      (new.byte 1)).store (addr.toNat + 2) (new.byte 2)).store (addr.toNat + 3) (new.byte 3) := by
    rw [storeWord, wordAddresses_eq held.below]
    rfl
  simp only [stored, byte?_store, backs_store, first, backed 1 (by decide), backed 2 (by decide),
    backed 3 (by decide)]
  by_cases inside : addr.toNat ≤ j ∧ j < addr.toNat + 4
  · obtain rfl | rfl | rfl | rfl : j = addr.toNat ∨ j = addr.toNat + 1 ∨ j = addr.toNat + 2 ∨
        j = addr.toNat + 3 := by omega
    all_goals simp
  · rw [if_neg inside, if_neg (by omega), if_neg (by omega), if_neg (by omega), if_neg (by omega)]

/-! ## The bytes of a RAM -/

/-- The memory holds the bytes of the RAM, from the address `origin` on. -/
def Images (m : Memory) (origin : Nat) (r : Ram) : Prop :=
  ∀ i < r.size, m.byte? (origin + i) = r.byte? i

namespace Images

variable {r : Ram} {origin i : Nat} {offset : Addr}

/-- The word of the RAM at an offset lies at the corresponding address of the memory. -/
theorem holdsWord (images : m.Images origin r) (inside : offset.toNat < r.size)
    (place : addr.toNat = origin + offset.toNat / 4 * 4) (below : addr.toNat + 4 < 2 ^ 32) :
    m.HoldsWord addr (r.wordAt offset) := by
  refine ⟨below, fun k inWord => ?_⟩
  have within : offset.toNat / 4 * 4 + k < r.size := by
    rw [Ram.size] at inside ⊢
    omega
  rw [place, Nat.add_assoc, images _ within, r.byte?_wordAt inside inWord]

theorem byte (images : m.Images origin r) (inside : i < r.size) (word : offset.toNat / 4 = i / 4) :
    m.byte (origin + i) = .ok ((r.wordAt offset).byte (i % 4)) := by
  have present : offset.toNat < r.size := by
    rw [Ram.size] at inside ⊢
    omega
  have held := r.byte?_wordAt present (Nat.mod_lt i (show 0 < 4 by decide))
  rw [word, Nat.div_add_mod'] at held
  exact byte_of_byte? ((images i inside).trans held)

/-- A word that is written to both leaves the memory with the bytes of the RAM. -/
theorem storeWord (images : m.Images origin r) (inside : offset.toNat < r.size)
    (place : addr.toNat = origin + offset.toNat / 4 * 4) (below : addr.toNat + 4 < 2 ^ 32) (w : Word) :
    (m.storeWord addr w).Images origin (r.transact (.writeWord offset w)).2 := by
  intro j bound
  rw [Ram.size_transact] at bound
  rw [(images.holdsWord inside place below).byte?_storeWord, r.byte?_transact_writeWord inside, images j bound]
  by_cases word : j / 4 = offset.toNat / 4
  · have index : origin + j - addr.toNat = j % 4 := by omega
    rw [if_pos word, if_pos (by omega), index]
  · rw [if_neg word, if_neg (by omega)]

/-- So does a byte. -/
theorem store (images : m.Images origin r) (inside : i < r.size) (v : Byte) :
    (m.store (origin + i) v).Images origin (r.setByte i v) := by
  intro j bound
  rw [Ram.size_setByte] at bound
  have backed : m.backs (origin + i) = true := by
    have present : i / 4 < r.words.size := by
      rw [Ram.size] at inside
      omega
    have held := images i inside
    rw [Ram.byte?, Ram.word?, Array.getElem?_eq_getElem present] at held
    exact backs_of_byte? held
  rw [byte?_store backed, r.byte?_setByte _ _ _ inside, images j bound]
  by_cases same : j = i
  · rw [if_pos same, if_pos (by rw [same])]
  · rw [if_neg same, if_neg (by omega)]

end Images

end Memory

end InstrumentBus
