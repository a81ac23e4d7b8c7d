import Mathlib.Data.Int.ModEq
import InstrumentBus.Proofs.Word.Mask

/-!
# Numbers in the low bits of a word

The low bits of a word, read in two's complement, are the number of that width which is congruent to
whatever was cut down to them. No other number of that width is (`BalancedResidue.unique`).
-/

namespace InstrumentBus

/-! ## Balanced residues -/

/-- The number `n` has `bits` bits in two's complement and is congruent to `raw`. -/
structure BalancedResidue (bits : Nat) (raw n : Int) : Prop where
  lower : -2 ^ (bits - 1) ≤ n
  upper : n < 2 ^ (bits - 1)
  congruent : n ≡ raw [ZMOD 2 ^ bits]

namespace BalancedResidue

variable {bits : Nat} {raw n m : Int}

/-- The range of the numbers of some bits is as long as the modulus. -/
theorem two_pow_eq (wide : 0 < bits) : (2 : Int) ^ bits = 2 ^ (bits - 1) + 2 ^ (bits - 1) := by
  obtain ⟨less, rfl⟩ := Nat.exists_eq_add_of_lt wide
  rw [Nat.zero_add, Nat.add_sub_cancel, pow_succ]
  omega

theorem bmod (wide : 0 < bits) (raw : Int) : BalancedResidue bits raw (raw.bmod (2 ^ bits)) := by
  have positive : 0 < 2 ^ bits := Nat.two_pow_pos bits
  have range := two_pow_eq wide
  have modulus : ((2 ^ bits : Nat) : Int) = 2 ^ bits := by push_cast; rfl
  have least := Int.le_bmod (x := raw) positive
  have most := Int.bmod_lt (x := raw) positive
  rw [modulus] at least most
  refine ⟨by omega, by omega, ?_⟩
  have congruent := Int.bmod_emod (x := raw) (m := 2 ^ bits)
  rwa [modulus] at congruent

/-- There is only one such number. -/
theorem unique (wide : 0 < bits) (left : BalancedResidue bits raw n) (right : BalancedResidue bits raw m) :
    n = m := by
  have divides : 2 ^ bits ∣ n - m := (right.congruent.trans left.congruent.symm).dvd
  have range := two_pow_eq wide
  have apart : |n - m| < 2 ^ bits := by
    obtain ⟨leastLeft, mostLeft, -⟩ := left
    obtain ⟨leastRight, mostRight, -⟩ := right
    rw [abs_lt]
    omega
  exact sub_eq_zero.1 (Int.eq_zero_of_abs_lt_dvd divides apart)

/-- A number that has so many bits is its own residue. -/
theorem self (lower : -2 ^ (bits - 1) ≤ raw) (upper : raw < 2 ^ (bits - 1)) : BalancedResidue bits raw raw :=
  ⟨lower, upper, .refl _⟩

end BalancedResidue

/-! ## Words -/

/-- A mask of the width that is read changes nothing. -/
theorem Word.signed_and_widthMask (bits : Nat) (w : Word) : signed bits (w &&& widthMask bits) = signed bits w := by
  rw [signed, signed, BitVec.toInt_setWidth, BitVec.toInt_setWidth, toNat_and_widthMask, Int.natCast_emod]
  exact Int.emod_bmod _ _

/-- A number that was cut down to a word is read up to multiples of the width that is read. -/
theorem Word.signed_ofInt {bits : Nat} (narrow : bits ≤ 32) (raw : Int) :
    signed bits (BitVec.ofInt 32 raw) = raw.bmod (2 ^ bits) := by
  have nonneg : 0 ≤ raw % ((2 ^ 32 : Nat) : Int) := Int.emod_nonneg _ (by decide)
  have divides : ((2 ^ bits : Nat) : Int) ∣ ((2 ^ 32 : Nat) : Int) :=
    Int.natCast_dvd_natCast.2 (pow_dvd_pow 2 narrow)
  rw [signed, BitVec.toInt_setWidth, Nat.min_eq_left narrow, BitVec.toNat_ofInt, Int.toNat_of_nonneg nonneg,
    ← Int.emod_bmod, Int.emod_emod_of_dvd _ divides, Int.emod_bmod]

end InstrumentBus
