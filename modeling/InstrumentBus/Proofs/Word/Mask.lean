import InstrumentBus.Word

/-!
# Masks of words

A register keeps the low bits of what is written to it. These lemmas turn the masks that do so into
remainders, so that the rest of the theory can reason about registers as numbers.
-/

namespace InstrumentBus

/-! ## Width masks -/

theorem getLsbD_widthMask (w i : Nat) :
    (widthMask w).getLsbD i = (decide (i < w) && decide (i < 32)) := by
  rw [widthMask, BitVec.getLsbD_ofNat, Nat.testBit_two_pow_sub_one]
  by_cases inWord : i < 32
  · have bound : i < min w 32 ↔ i < w := by omega
    simp [inWord, bound]
  · simp [inWord]

/-- A whole word is its own masked value. -/
theorem and_widthMask_word (w : Word) : w &&& widthMask 32 = w :=
  BitVec.and_allOnes

/-- Masking a word to a width is taking its remainder. -/
theorem toNat_and_widthMask (x : Word) (w : Nat) :
    (x &&& widthMask w).toNat = x.toNat % 2 ^ min w 32 := by
  have powLe : 2 ^ min w 32 ≤ 2 ^ 32 := Nat.pow_le_pow_right (by decide) (Nat.min_le_right w 32)
  have powPos : 0 < 2 ^ min w 32 := Nat.two_pow_pos _
  rw [BitVec.toNat_and, widthMask, BitVec.toNat_ofNat, Nat.mod_eq_of_lt (by omega),
    Nat.and_two_pow_sub_one_eq_mod]

/-- A value that fits the width is its own masked value. -/
theorem toNat_and_widthMask_of_lt {x : Word} {w : Nat} (fits : x.toNat < 2 ^ w) :
    (x &&& widthMask w).toNat = x.toNat := by
  rw [toNat_and_widthMask]
  apply Nat.mod_eq_of_lt
  rcases Nat.le_total w 32 with narrow | wide
  · rwa [Nat.min_eq_left narrow]
  · rw [Nat.min_eq_right wide]
    exact x.isLt

/-- A whole write to a register forgets what the register held. -/
theorem Word.merge_widthMask {old new : Word} {w : Nat} (fits : old.toNat < 2 ^ w) :
    Word.merge old new (widthMask w) = new &&& widthMask w := by
  have cleared : old &&& ~~~widthMask w = 0#32 := by
    apply BitVec.eq_of_getLsbD_eq
    intro i inWord
    rw [BitVec.getLsbD_and, BitVec.getLsbD_not, getLsbD_widthMask, BitVec.getLsbD_zero]
    by_cases low : i < w
    · simp [low, inWord]
    · have powLe : 2 ^ w ≤ 2 ^ i := Nat.pow_le_pow_right (by decide) (by omega)
      have high : old.getLsbD i = false := Nat.testBit_lt_two_pow (Nat.lt_of_lt_of_le fits powLe)
      rw [high, Bool.false_and]
  rw [Word.merge, cleared, BitVec.zero_or]

/-! ## Addresses of words -/

/-- Rounding an address down to its word drops its remainder. -/
theorem Addr.toNat_wordBase (addr : Addr) : addr.wordBase.toNat = addr.toNat / 4 * 4 := by
  have shifted : addr.wordBase = addr >>> 2 <<< 2 := by
    apply BitVec.eq_of_getLsbD_eq
    intro i inWord
    have three : (3#32).getLsbD i = decide (i < 2) := by
      rw [BitVec.getLsbD_ofNat, show 3 = 2 ^ 2 - 1 from rfl, Nat.testBit_two_pow_sub_one]
      simp [inWord]
    rw [wordBase, BitVec.getLsbD_and, BitVec.getLsbD_not, three, BitVec.getLsbD_shiftLeft,
      BitVec.getLsbD_ushiftRight]
    by_cases low : i < 2
    · simp [low]
    · rw [show 2 + (i - 2) = i by omega]
      simp [low, inWord]
  have bound := addr.isLt
  rw [shifted, BitVec.toNat_shiftLeft, BitVec.toNat_ushiftRight, Nat.shiftLeft_eq,
    Nat.shiftRight_eq_div_pow]
  omega

theorem Addr.wordBase_of_aligned {addr : Addr} (aligned : addr.Aligned) : addr.wordBase = addr := by
  apply BitVec.eq_of_toNat_eq
  rw [toNat_wordBase]
  unfold Aligned at aligned
  omega

theorem Addr.aligned_wordBase (addr : Addr) : addr.wordBase.Aligned := by
  rw [Aligned, toNat_wordBase]
  exact Nat.mul_mod_left _ 4

/-- Inside a span that ends inside the address space no address wraps around. -/
theorem Addr.toNat_add_ofNat {addr : Addr} {size i : Nat} (limit : addr.toNat + size ≤ 2 ^ 32)
    (inside : i < size) : (addr + BitVec.ofNat 32 i).toNat = addr.toNat + i := by
  rw [BitVec.toNat_add, BitVec.toNat_ofNat]
  omega

/-! ## Lanes and lengths -/

theorem Lanes.mask_all : Lanes.all.mask = BitVec.allOnes 32 := by
  decide

theorem Word.merge_lanes_all (old new : Word) : Word.merge old new Lanes.all.mask = new := by
  rw [Lanes.mask_all, Word.merge, BitVec.not_allOnes, BitVec.and_zero, BitVec.zero_or,
    BitVec.and_allOnes]

/-- A number fits its own number of digits. -/
theorem lt_two_pow_bitLength (n : Nat) : n < 2 ^ bitLength n := by
  unfold bitLength
  split
  · next zero => simp [zero]
  · exact Nat.lt_log2_self

end InstrumentBus
