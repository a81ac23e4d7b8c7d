import InstrumentBus.FixedPoint.Numeral

/-!
# Expanding a binary fraction in decimal

The digits of a fraction are found by multiplying it by ten: what passes the point is the next digit, and
what stays behind the point is the rest. Nothing counts the digits. Each multiplication moves the lowest
bit that is set up by one place, so that in the end nothing stays behind the point.
-/

namespace InstrumentBus.FixedPoint

/-- The bits of a magnitude that are behind the point. -/
def fractionMask (bits : Nat) : BitVec 128 :=
  1#128 <<< bits - 1

/-- The digit that passes the point when a fraction is multiplied by ten. -/
def digitOf (bits : Nat) (r : BitVec 128) : Char :=
  Char.ofNat (BitVec.ofNat 8 '0'.toNat + ((r * 10) >>> bits).setWidth 8).toNat

/-- What stays behind the point when a fraction is multiplied by ten. -/
def remainder (bits : Nat) (r : BitVec 128) : BitVec 128 :=
  r * 10 &&& fractionMask bits

/-! ## Nothing is left in the end -/

theorem two_pow_ctz_dvd (r : BitVec 128) : 2 ^ r.ctz.toNat ∣ r.toNat := by
  apply Nat.dvd_of_mod_eq_zero
  apply Nat.eq_of_testBit_eq
  intro i
  rw [Nat.testBit_mod_two_pow, Nat.zero_testBit]
  by_cases below : i < r.ctz.toNat
  · have unset : r.toNat.testBit i = false := BitVec.getLsbD_false_of_lt_ctz below
    rw [unset, Bool.and_false]
  · rw [decide_eq_false below, Bool.false_and]

/-- The bit that was the lowest one is not set in ten times the number, nor is any below it. -/
theorem getLsbD_mul_ten {r : BitVec 128} {i : Nat} (low : i ≤ r.ctz.toNat) :
    (r * 10).getLsbD i = false := by
  obtain ⟨m, product⟩ := two_pow_ctz_dvd r
  have doubled : r.toNat * 10 = 2 ^ (r.ctz.toNat + 1) * (m * 5) := by
    rw [Nat.pow_succ, Nat.mul_assoc, ← Nat.mul_assoc 2 m 5, Nat.mul_comm 2 m, Nat.mul_assoc m,
      ← Nat.mul_assoc, ← product]
  have ten : (10 : BitVec 128).toNat = 10 := rfl
  have beyond : ¬r.ctz.toNat + 1 ≤ i := Nat.not_le.2 (Nat.lt_succ_of_le low)
  rw [BitVec.getLsbD, BitVec.toNat_mul, ten, doubled, Nat.testBit_mod_two_pow,
    Nat.testBit_two_pow_mul, decide_eq_false beyond, Bool.false_and, Bool.and_false]

theorem ctz_remainder_lt {r : BitVec 128} (bits : Nat) (present : r ≠ 0) :
    128 - (remainder bits r).ctz.toNat < 128 - r.ctz.toNat := by
  have place : r.ctz.toNat < 128 := BitVec.ctz_lt_iff_ne_zero.2 present
  apply Nat.sub_lt_sub_left place
  apply Nat.lt_of_not_le
  intro low
  have some : remainder bits r ≠ 0 :=
    BitVec.ctz_lt_iff_ne_zero.1 (Nat.lt_of_le_of_lt low place)
  have set := BitVec.getLsbD_true_ctz_of_ne_zero some
  rw [remainder, BitVec.getLsbD_and, ← remainder, getLsbD_mul_ten low] at set
  cases set

/-- The digits of a fraction, up to the one behind which nothing is left. -/
def fractionDigits (bits : Nat) (r : BitVec 128) : List Char :=
  if r = 0 then [] else digitOf bits r :: fractionDigits bits (remainder bits r)
termination_by 128 - r.ctz.toNat
decreasing_by exact ctz_remainder_lt bits ‹_›

end InstrumentBus.FixedPoint
