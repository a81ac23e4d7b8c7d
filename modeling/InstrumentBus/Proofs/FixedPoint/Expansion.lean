import Mathlib.Logic.Function.Iterate
import InstrumentBus.Proofs.FixedPoint.Doubling
import InstrumentBus.FixedPoint.Expansion

/-!
# What multiplying by ten finds

Ten times a fraction is the digit that passes the point and the remainder behind it (`digitOf_remainder`),
so the digits denote the fraction exactly (`ofDigits_fractionDigits`). A remainder has one factor of two
more than what it came from: there are at most as many digits as there are bits, and the last is not zero.
No round leaves the 128 bits (`roundsFit`).
-/

namespace InstrumentBus.FixedPoint

variable {bits k : Nat} {r magnitude : BitVec 128}

/-! ## The bits behind the point -/

theorem toNat_and_fractionMask (room : bits < 128) (r : BitVec 128) :
    (r &&& fractionMask bits).toNat = r.toNat % 2 ^ bits := by
  have power : 2 ^ bits < 2 ^ 128 := Nat.pow_lt_pow_right (by decide) room
  have positive := Nat.two_pow_pos bits
  have one : (1 : BitVec 128).toNat = 1 := rfl
  have mask : (fractionMask bits).toNat = 2 ^ bits - 1 := by
    rw [fractionMask, BitVec.toNat_sub, BitVec.toNat_shiftLeft, BitVec.toNat_ofNat, one,
      Nat.shiftLeft_eq]
    omega
  rw [BitVec.toNat_and, mask, Nat.and_two_pow_sub_one_eq_mod]

theorem toNat_and_fractionMask_lt (room : bits < 128) (r : BitVec 128) :
    (r &&& fractionMask bits).toNat < 2 ^ bits := by
  rw [toNat_and_fractionMask room]
  exact Nat.mod_lt _ (Nat.two_pow_pos bits)

/-! ## One round -/

theorem tenfold_lt (le : bits ≤ 124) (small : r.toNat < 2 ^ bits) : r.toNat * 10 < 2 ^ 128 := by
  have bound : 2 ^ bits ≤ 2 ^ 124 := Nat.pow_le_pow_right (by decide) le
  omega

theorem toNat_mul_ten (le : bits ≤ 124) (small : r.toNat < 2 ^ bits) :
    (r * 10).toNat = r.toNat * 10 := by
  have ten : (10 : BitVec 128).toNat = 10 := rfl
  rw [BitVec.toNat_mul, ten, Nat.mod_eq_of_lt (tenfold_lt le small)]

theorem toNat_passed (le : bits ≤ 124) (small : r.toNat < 2 ^ bits) :
    ((r * 10) >>> bits).toNat = r.toNat * 10 / 2 ^ bits := by
  rw [BitVec.toNat_ushiftRight, toNat_mul_ten le small, Nat.shiftRight_eq_div_pow]

/-- What passes the point is a single digit. -/
theorem passed_le (small : r.toNat < 2 ^ bits) : r.toNat * 10 / 2 ^ bits ≤ 9 := by
  apply Nat.le_of_lt_succ
  rw [Nat.div_lt_iff_lt_mul (Nat.two_pow_pos bits)]
  omega

theorem digitOf_spec (le : bits ≤ 124) (small : r.toNat < 2 ^ bits) :
    isDigit (digitOf bits r) = true ∧
      (Digit.ofChar (digitOf bits r)).toNat = r.toNat * 10 / 2 ^ bits := by
  have single := passed_le small
  have byte : (BitVec.ofNat 8 '0'.toNat + ((r * 10) >>> bits).setWidth 8).toNat =
      '0'.toNat + r.toNat * 10 / 2 ^ bits := by
    have zero : '0'.toNat = 48 := rfl
    rw [BitVec.toNat_add, BitVec.toNat_setWidth, toNat_passed le small, BitVec.toNat_ofNat, zero]
    generalize r.toNat * 10 / 2 ^ bits = passed at single ⊢
    omega
  have characters : ∀ d ≤ 9, isDigit (Char.ofNat ('0'.toNat + d)) = true ∧
      (Digit.ofChar (Char.ofNat ('0'.toNat + d))).toNat = d := by decide
  rw [digitOf, byte]
  exact characters _ single

theorem toNat_remainder (le : bits ≤ 124) (small : r.toNat < 2 ^ bits) :
    (remainder bits r).toNat = r.toNat * 10 % 2 ^ bits := by
  rw [remainder, toNat_and_fractionMask (by omega), toNat_mul_ten le small]

theorem toNat_remainder_lt (room : bits < 128) (r : BitVec 128) :
    (remainder bits r).toNat < 2 ^ bits :=
  toNat_and_fractionMask_lt room _

/-- Ten times a fraction is its next digit and the remainder. -/
theorem digitOf_remainder (le : bits ≤ 124) (small : r.toNat < 2 ^ bits) :
    (Digit.ofChar (digitOf bits r)).toNat * 2 ^ bits + (remainder bits r).toNat = r.toNat * 10 := by
  rw [(digitOf_spec le small).2, toNat_remainder le small]
  exact Nat.div_add_mod' _ _

/-- A digit behind which nothing is left is not zero. -/
theorem digitOf_ne_zero (le : bits ≤ 124) (small : r.toNat < 2 ^ bits) (present : r ≠ 0)
    (last : remainder bits r = 0) : digitOf bits r ≠ '0' := by
  intro zero
  have split := digitOf_remainder le small
  have none : (Digit.ofChar '0').toNat = 0 := rfl
  have nothing : (0 : BitVec 128).toNat = 0 := rfl
  rw [last, zero, none, nothing] at split
  exact present (BitVec.eq_of_toNat_eq (by omega))

/-- The remainder has one factor of two more. -/
theorem two_pow_dvd_remainder (le : bits ≤ 124) (small : r.toNat < 2 ^ bits)
    (factors : 2 ^ k ∣ r.toNat) (more : k < bits) : 2 ^ (k + 1) ∣ (remainder bits r).toNat := by
  have whole : 2 ^ (k + 1) ∣ 2 ^ bits := Nat.pow_dvd_pow 2 more
  have tenfold : 2 ^ (k + 1) ∣ r.toNat * 10 := by
    rw [Nat.pow_succ]
    exact Nat.mul_dvd_mul factors (by decide)
  rw [toNat_remainder le small]
  exact (Nat.dvd_mod_iff whole).2 tenfold

/-! ## All rounds -/

theorem isDigit_fractionDigits (le : bits ≤ 124) (small : r.toNat < 2 ^ bits) :
    ∀ c ∈ fractionDigits bits r, isDigit c = true := by
  fun_induction fractionDigits bits r with
  | case1 => exact fun c absent => absurd absent List.not_mem_nil
  | case2 r present ih =>
    intro c listed
    rcases List.mem_cons.1 listed with rfl | later
    · exact (digitOf_spec le small).1
    · exact ih (toNat_remainder_lt (by omega) r) c later

/-- The digits denote the fraction exactly. -/
theorem ofDigits_fractionDigits (le : bits ≤ 124) (small : r.toNat < 2 ^ bits) :
    ofDigits (fractionDigits bits r) * 2 ^ bits =
      r.toNat * 10 ^ (fractionDigits bits r).length := by
  rw [ofDigits_eq (isDigit_fractionDigits le small)]
  fun_induction fractionDigits bits r with
  | case1 => simp [digitsValue]
  | case2 r present ih =>
    have rest := ih (toNat_remainder_lt (by omega) r)
    have split := digitOf_remainder le small
    rw [List.map_cons, digitsValue, List.length_map, List.length_cons, Nat.add_mul, rest,
      Nat.mul_right_comm, ← Nat.add_mul, split, Nat.pow_succ', Nat.mul_assoc]

/-- There are at most as many digits as bits, and one less for each factor of two. -/
theorem length_fractionDigits_le (le : bits ≤ 124) (small : r.toNat < 2 ^ bits) (most : k ≤ bits)
    (factors : 2 ^ k ∣ r.toNat) : (fractionDigits bits r).length ≤ bits - k := by
  -- the induction is over the rounds, with one factor of two more in each
  fun_induction fractionDigits bits r generalizing k with
  | case1 => exact Nat.zero_le _
  | case2 r present ih =>
    have more : k < bits := by
      apply Nat.lt_of_le_of_ne most
      rintro rfl
      have none := Nat.eq_zero_of_dvd_of_lt factors small
      exact present (BitVec.eq_of_toNat_eq none)
    have rest := ih (toNat_remainder_lt (by omega) r) more
      (two_pow_dvd_remainder le small factors more)
    rw [List.length_cons]
    omega

theorem getLast?_fractionDigits_ne (le : bits ≤ 124) (small : r.toNat < 2 ^ bits) :
    (fractionDigits bits r).getLast? ≠ some '0' := by
  fun_induction fractionDigits bits r with
  | case1 => exact nofun
  | case2 r present ih =>
    by_cases last : remainder bits r = 0
    · rw [last, fractionDigits, if_pos rfl, List.getLast?_singleton, ne_eq, Option.some.injEq]
      exact digitOf_ne_zero le small present last
    · have rest := ih (toNat_remainder_lt (by omega) r)
      rw [fractionDigits, if_neg last] at rest ⊢
      rwa [List.getLast?_cons_cons]

theorem fractionDigits_eq_nil_iff : fractionDigits bits r = [] ↔ r = 0 := by
  rw [fractionDigits]
  split
  · next none => exact iff_of_true rfl none
  · next present => exact iff_of_false (List.cons_ne_nil _ _) present

/-! ## Nothing overflows -/

/-- No operation on a fraction of so many bits leaves its type: not the shift that makes the mask, not the
multiplication by ten in any round, and what passes the point is one digit. After as many rounds as there
are bits nothing is left, so the loop has ended. -/
structure RoundsFit (bits : Nat) (r : BitVec 128) : Prop where
  mask : bits < 128 ∧ (1#128 <<< bits).toNat = 2 ^ bits
  tenfold : ∀ k, ((remainder bits)^[k] r).toNat * 10 < 2 ^ 128
  passed : ∀ k, (((remainder bits)^[k] r * 10) >>> bits).toNat ≤ 9
  ended : (remainder bits)^[bits] r = 0

theorem toNat_iterate_remainder_lt (room : bits < 128) (small : r.toNat < 2 ^ bits) (k : Nat) :
    ((remainder bits)^[k] r).toNat < 2 ^ bits := by
  cases k with
  | zero => exact small
  | succ k =>
    rw [Function.iterate_succ_apply']
    exact toNat_remainder_lt room _

theorem two_pow_dvd_iterate_remainder (le : bits ≤ 124) (small : r.toNat < 2 ^ bits)
    (most : k ≤ bits) : 2 ^ k ∣ ((remainder bits)^[k] r).toNat := by
  induction k with
  | zero => exact Nat.one_dvd _
  | succ k ih =>
    rw [Function.iterate_succ_apply']
    exact two_pow_dvd_remainder le (toNat_iterate_remainder_lt (by omega) small k)
      (ih (by omega)) most

theorem roundsFit (le : bits ≤ 124) (small : r.toNat < 2 ^ bits) : RoundsFit bits r := by
  have room : bits < 128 := by omega
  have bound := toNat_iterate_remainder_lt room small
  refine ⟨⟨room, ?_⟩, fun k => tenfold_lt le (bound k), fun k => ?_, ?_⟩
  · rw [BitVec.toNat_shiftLeft, Nat.shiftLeft_eq]
    exact (congrArg (· % 2 ^ 128) (Nat.one_mul _)).trans
      (Nat.mod_eq_of_lt (Nat.pow_lt_pow_right (by decide) room))
  · rw [toNat_passed le (bound k)]
    exact passed_le (bound k)
  · have factors := two_pow_dvd_iterate_remainder le small (Nat.le_refl bits)
    exact BitVec.eq_of_toNat_eq (Nat.eq_zero_of_dvd_of_lt factors (bound bits))

end InstrumentBus.FixedPoint
