import InstrumentBus.Proofs.Word.Mask
import InstrumentBus.Ram
import InstrumentBus.Transport

/-!
# Bytes of a RAM

A RAM is made of words, and a byte reaches it in one lane of a word. `Ram.byte?` reads a RAM as a sequence of
bytes, the least significant byte of a word first. A write of one lane sets one of these bytes
(`Ram.byte?_setByte`), so bytes that are written in turn stand in turn afterwards and leave all others alone
(`Ram.byte?_store`).
-/

namespace InstrumentBus

/-! ## Bytes and lanes -/

/-- The lane of a byte covers the eight bits of the byte. -/
theorem Lanes.mask_single {k : Nat} (inWord : k < 4) : Lanes.mask (1#4 <<< k) = 0xFF#32 <<< (8 * k) := by
  obtain rfl | rfl | rfl | rfl : k = 0 ∨ k = 1 ∨ k = 2 ∨ k = 3 := by omega
  all_goals decide

theorem Lanes.getLsbD_mask_single {k i j : Nat} (inWord : k < 4) (place : j < 4) (low : i < 8) :
    (Lanes.mask (1#4 <<< k)).getLsbD (8 * j + i) = decide (j = k) := by
  have ones : (0xFF#32).getLsbD (8 * j + i - 8 * k) = decide (8 * j + i - 8 * k < 8) := by
    rw [BitVec.getLsbD_ofNat, show 0xFF = 2 ^ 8 - 1 from rfl, Nat.testBit_two_pow_sub_one,
      decide_eq_true (by omega : 8 * j + i - 8 * k < 32), Bool.true_and]
  rw [mask_single inWord, BitVec.getLsbD_shiftLeft, ones, decide_eq_true (by omega : 8 * j + i < 32),
    Bool.true_and, ← decide_not, ← Bool.decide_and]
  exact decide_eq_decide.2 (by omega)

theorem Word.getLsbD_byte (w : Word) (j : Nat) {i : Nat} (low : i < 8) :
    (Word.byte w j).getLsbD i = w.getLsbD (8 * j + i) := by
  rw [byte, BitVec.getLsbD_setWidth, BitVec.getLsbD_ushiftRight, decide_eq_true low, Bool.true_and]

theorem Word.byte_ofByteAt (v : Byte) {k : Nat} (inWord : k < 4) : Word.byte (Word.ofByteAt v k) k = v := by
  apply BitVec.eq_of_getLsbD_eq
  intro i low
  rw [getLsbD_byte _ _ low, ofByteAt, BitVec.getLsbD_shiftLeft, BitVec.getLsbD_setWidth,
    Nat.add_sub_cancel_left]
  simp only [show 8 * k + i < 32 by omega, show ¬8 * k + i < 8 * k by omega, show i < 32 by omega,
    decide_true, decide_false, Bool.not_false, Bool.true_and]

/-- A write of one lane sets the byte of the lane and keeps the others. -/
theorem Word.byte_merge_single (old : Word) (v : Byte) {j k : Nat} (inWord : k < 4) (place : j < 4) :
    Word.byte (Word.merge old (Word.ofByteAt v k) (Lanes.mask (1#4 <<< k))) j =
      if j = k then v else Word.byte old j := by
  have bit {i : Nat} (low : i < 8) :
      (Word.byte (Word.merge old (Word.ofByteAt v k) (Lanes.mask (1#4 <<< k))) j).getLsbD i =
        if j = k then (Word.byte (Word.ofByteAt v k) j).getLsbD i else (Word.byte old j).getLsbD i := by
    rw [getLsbD_byte _ _ low, getLsbD_byte _ _ low, getLsbD_byte _ _ low, merge, BitVec.getLsbD_or,
      BitVec.getLsbD_and, BitVec.getLsbD_and, BitVec.getLsbD_not, Lanes.getLsbD_mask_single inWord place low,
      decide_eq_true (by omega : 8 * j + i < 32)]
    by_cases same : j = k <;> simp [same]
  apply BitVec.eq_of_getLsbD_eq
  intro i low
  rw [bit low]
  split
  · next same => rw [same, byte_ofByteAt v inWord]
  · rfl

namespace Ram

variable {r : Ram} {i j : Nat} {v : Byte}

/-! ## The bytes of a RAM -/

/-- The byte in place `i`. -/
def byte? (r : Ram) (i : Nat) : Option Byte :=
  (r.word? (i / 4)).map fun w => Word.byte w (i % 4)

/-- The RAM with the byte in place `i` set, if there is such a place. -/
def setByte (r : Ram) (i : Nat) (v : Byte) : Ram :=
  { words := r.words.modify (i / 4) fun w =>
      Word.merge w (Word.ofByteAt v (i % 4)) (Lanes.mask (1#4 <<< (i % 4))) }

/-- The RAM with some bytes set, from place `i` on. -/
def store (r : Ram) (i : Nat) : List Byte → Ram
  | [] => r
  | v :: bytes => (r.setByte i v).store (i + 1) bytes

/-- A fresh RAM is made of zeros. -/
theorem byte?_zero (bytes : Nat) {i : Nat} (inside : i < (zero bytes).size) : (zero bytes).byte? i = some 0 := by
  have present : i / 4 < (bytes + 3) / 4 := by
    rw [size, zero, Array.size_replicate] at inside
    omega
  rw [byte?, word?, zero, Array.getElem?_replicate, if_pos present]
  exact congrArg some (by simp [Word.byte])

@[simp]
theorem size_setByte (r : Ram) (i : Nat) (v : Byte) : (r.setByte i v).size = r.size := by
  rw [size, size, setByte, Array.size_modify]

theorem byte?_setByte (r : Ram) (i j : Nat) (v : Byte) (inside : i < r.size) :
    (r.setByte i v).byte? j = if j = i then some v else r.byte? j := by
  have present : i / 4 < r.words.size := by
    rw [size] at inside
    omega
  rw [byte?, byte?, word?, word?, setByte, Array.getElem?_modify]
  by_cases word : i / 4 = j / 4
  · rw [if_pos word, ← word, Array.getElem?_eq_getElem present, Option.map_some, Option.map_some,
      Option.map_some, Word.byte_merge_single _ _ (Nat.mod_lt _ (by decide)) (Nat.mod_lt _ (by decide))]
    by_cases same : j = i
    · rw [if_pos same, if_pos (by rw [same])]
    · rw [if_neg same, if_neg (by omega)]
  · rw [if_neg word, if_neg fun same => word (by rw [same])]

/-- Bytes that are stored in turn stand in turn, and the others are what they were. -/
theorem byte?_store (r : Ram) (i j : Nat) (bytes : List Byte) (fits : i + bytes.length ≤ r.size) :
    (r.store i bytes).byte? j =
      if i ≤ j ∧ j < i + bytes.length then bytes[j - i]? else r.byte? j := by
  induction bytes generalizing r i with
  | nil => rw [store, if_neg (by rw [List.length_nil]; omega)]
  | cons v bytes ih =>
    rw [List.length_cons] at fits ⊢
    rw [store, ih _ _ (by rw [size_setByte]; omega), byte?_setByte _ _ _ _ (by omega)]
    by_cases here : j = i
    · subst here
      rw [if_neg (by omega), if_pos rfl, if_pos (by omega), Nat.sub_self, List.getElem?_cons_zero]
    · rw [if_neg here]
      by_cases inside : i + 1 ≤ j ∧ j < i + 1 + bytes.length
      · rw [if_pos inside, if_pos (by omega), show j - i = j - (i + 1) + 1 by omega, List.getElem?_cons_succ]
      · rw [if_neg inside, if_neg (by omega)]

/-- The whole program is read back from where it was stored. -/
theorem byte?_store_zero (r : Ram) (bytes : List Byte) (fits : bytes.length ≤ r.size) (i : Nat) :
    (r.store 0 bytes).byte? i = if i < bytes.length then bytes[i]? else r.byte? i := by
  rw [byte?_store r 0 i bytes (by rwa [Nat.zero_add])]
  simp only [Nat.zero_le, true_and, Nat.zero_add, Nat.sub_zero]

/-! ## Transactions -/

/-- A write of one lane sets a byte. -/
theorem transact_writeByte (r : Ram) {addr : Addr} (place : addr.toNat / 4 = i / 4) (inside : i < r.size)
    (v : Byte) :
    r.transact (.write addr (Word.ofByteAt v (i % 4)) (1#4 <<< (i % 4))) = (.acked 0, r.setByte i v) := by
  have present : i / 4 < r.words.size := by
    rw [size] at inside
    omega
  refine congrArg (fun words => (Response.acked 0, Ram.mk words)) (Array.ext_getElem? fun n => ?_)
  rw [wordAt, place, Array.getElem?_setIfInBounds, Array.getElem?_modify]
  by_cases word : i / 4 = n
  · subst word
    rw [if_pos rfl, if_pos rfl, if_pos present, Array.getElem?_eq_getElem present]
    rfl
  · rw [if_neg word, if_neg word]

/-- A read delivers the word that holds a byte. -/
theorem transact_readByte (r : Ram) {addr : Addr} (place : addr.toNat / 4 = i / 4) (held : r.byte? i = some v) :
    ∃ w, r.transact (.read addr) = (.acked w, r) ∧ Word.byte w (i % 4) = v := by
  obtain ⟨w, present, rfl⟩ := Option.map_eq_some_iff.1 held
  refine ⟨w, ?_, rfl⟩
  rw [word?] at present
  rw [transact, wordAt, place, present]
  rfl

@[simp]
theorem size_transact (r : Ram) (req : Request) : (r.transact req).2.size = r.size := by
  cases req with
  | read addr => rfl
  | write addr data lanes => exact congrArg (4 * ·) Array.size_setIfInBounds

/-- A word of a RAM is made of four bytes. -/
theorem byte?_wordAt (r : Ram) {addr : Addr} (inside : addr.toNat < r.size) (place : j < 4) :
    r.byte? (addr.toNat / 4 * 4 + j) = some (Word.byte (r.wordAt addr) j) := by
  have present : addr.toNat / 4 < r.words.size := by
    rw [size] at inside
    omega
  have index : (addr.toNat / 4 * 4 + j) / 4 = addr.toNat / 4 := by omega
  have lane : (addr.toNat / 4 * 4 + j) % 4 = j := by omega
  rw [byte?, word?, wordAt, index, lane, Array.getElem?_eq_getElem present]
  rfl

/-- The first word of a RAM is made of its first four bytes. -/
theorem byte?_wordAt_zero (populated : 0 < r.size) (place : j < 4) :
    r.byte? j = some (Word.byte (r.wordAt 0) j) := by
  have first := r.byte?_wordAt (show (0 : Addr).toNat < r.size from populated) place
  simpa using first

/-- A write of a whole word sets its four bytes. -/
theorem byte?_transact_writeWord (r : Ram) {addr : Addr} (inside : addr.toNat < r.size) (w : Word) (j : Nat) :
    (r.transact (.writeWord addr w)).2.byte? j =
      if j / 4 = addr.toNat / 4 then some (Word.byte w (j % 4)) else r.byte? j := by
  have present : addr.toNat / 4 < r.words.size := by
    rw [size] at inside
    omega
  rw [Request.writeWord, transact, Word.merge_lanes_all, byte?, byte?, word?, word?,
    Array.getElem?_setIfInBounds]
  by_cases word : j / 4 = addr.toNat / 4
  · rw [if_pos word, if_pos word.symm, if_pos present]
    rfl
  · rw [if_neg word, if_neg fun same => word same.symm]

end Ram

end InstrumentBus
