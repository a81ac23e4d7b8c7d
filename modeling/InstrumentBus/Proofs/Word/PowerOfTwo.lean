import InstrumentBus.Proofs.Word.Mask

/-!
# Sizes that are powers of two

The mask `size - 1` of a size that is a power of two cuts an address to its remainder, and the number
of its zero bits is the exponent. The power of two that holds a number of bytes is the least one.
-/

namespace InstrumentBus

theorem isPowerOfTwo_iff {n : Nat} : IsPowerOfTwo n ↔ n.isPowerOfTwo := by
  constructor
  · intro power
    exact ⟨n.log2, power.symm⟩
  · rintro ⟨k, rfl⟩
    show 2 ^ (2 ^ k).log2 = 2 ^ k
    rw [Nat.log2_two_pow]

/-! ## Words -/

section Words

variable {size : Word} {k : Nat}

theorem exponent_lt (sized : size.toNat = 2 ^ k) : k < 32 := by
  have fits := size.isLt
  rw [sized] at fits
  exact (Nat.pow_lt_pow_iff_right (by decide)).1 fits

theorem toNat_sub_one (sized : size.toNat = 2 ^ k) : (size - 1).toNat = 2 ^ k - 1 := by
  have positive : 0 < 2 ^ k := Nat.two_pow_pos k
  have least : 1#32 ≤ size := by
    rw [BitVec.le_def, sized]
    exact positive
  show (size - 1#32).toNat = 2 ^ k - 1
  rw [BitVec.toNat_sub_of_le least, sized]
  rfl

/-- Masking an address to a size is taking its remainder. -/
theorem toNat_and_sub_one (addr : Addr) (sized : size.toNat = 2 ^ k) :
    (addr &&& (size - 1)).toNat = addr.toNat % 2 ^ k := by
  rw [BitVec.toNat_and, toNat_sub_one sized, Nat.and_two_pow_sub_one_eq_mod]

/-- A power of two ends in as many zero bits as its exponent says. -/
theorem toNat_ctz (sized : size.toNat = 2 ^ k) : size.ctz.toNat = k := by
  have notZero : size ≠ 0#32 := by
    rintro rfl
    exact Nat.ne_of_lt (Nat.two_pow_pos k) sized
  have lowest := BitVec.getLsbD_true_ctz_of_ne_zero notZero
  rw [BitVec.getLsbD, sized, Nat.testBit_two_pow, decide_eq_true_eq] at lowest
  exact lowest.symm

end Words

/-! ## Rounding up -/

theorem isPowerOfTwo_ceilPowerOfTwo (n : Nat) : (ceilPowerOfTwo n).isPowerOfTwo :=
  ⟨_, rfl⟩

theorem le_ceilPowerOfTwo (n : Nat) : n ≤ ceilPowerOfTwo n := by
  have below : n - 1 < ceilPowerOfTwo n := lt_two_pow_bitLength (n - 1)
  omega

/-- Rounding up does not pass a power of two that is large enough. -/
theorem ceilPowerOfTwo_le {n k : Nat} (fits : n ≤ 2 ^ k) : ceilPowerOfTwo n ≤ 2 ^ k := by
  have positive : 0 < 2 ^ k := Nat.two_pow_pos k
  apply Nat.pow_le_pow_right (by decide)
  unfold bitLength
  split
  · exact Nat.zero_le k
  · next notZero => exact (Nat.log2_lt notZero).2 (by omega)

end InstrumentBus
