import Mathlib.Data.List.DropRight
import Mathlib.Tactic.Ring
import InstrumentBus.FixedPoint.Doubling

/-!
# What doubling finds

The digits that are left and the bits that were found make up the fraction, doubled as often as there were
rounds (`Doubling.Holds`). One round keeps that, so the bits are the fraction scaled and rounded down
(`toNat_fractionBits`), and since digits stay below ten and carries below two, no byte overflows.
-/

namespace InstrumentBus.FixedPoint

/-- The number that the values of digits denote, most significant first. -/
def digitsValue : List Digit → Nat
  | [] => 0
  | d :: ds => d.toNat * 10 ^ ds.length + digitsValue ds

/-- All of them are values of decimal digits. -/
def Decimal (ds : List Digit) : Prop :=
  ∀ d ∈ ds, d.toNat ≤ 9

variable {d carry : Digit} {ds start : List Digit} {cs : List Char} {c : Char}

theorem digitsValue_lt (decimal : Decimal ds) : digitsValue ds < 10 ^ ds.length := by
  induction ds with
  | nil => exact Nat.one_pos
  | cons d ds ih =>
    have rest := ih fun e present => decimal e (List.mem_cons_of_mem d present)
    have first : d.toNat * 10 ^ ds.length ≤ 9 * 10 ^ ds.length :=
      Nat.mul_le_mul_right _ (decimal d List.mem_cons_self)
    rw [digitsValue, List.length_cons, Nat.pow_succ]
    omega

/-- Bits that are put below others are added to them. -/
theorem toNat_shiftLeft_or {w n : Nat} {high low : BitVec w} (room : high.toNat * 2 ^ n < 2 ^ w)
    (small : low.toNat < 2 ^ n) : (high <<< n ||| low).toNat = high.toNat * 2 ^ n + low.toNat := by
  rw [BitVec.toNat_or, BitVec.toNat_shiftLeft, Nat.shiftLeft_eq, Nat.mod_eq_of_lt room,
    ← Nat.shiftLeft_eq, Nat.shiftLeft_add_eq_or_of_lt small]

/-! ## One doubling -/

theorem double_cons (d : Digit) (ds : List Digit) :
    double (d :: ds) = ((d * 2 + (double ds).2) % 10 :: (double ds).1, (d * 2 + (double ds).2) / 10) :=
  rfl

theorem length_double (ds : List Digit) : (double ds).1.length = ds.length := by
  induction ds with
  | nil => rfl
  | cons d ds ih => rw [double_cons, List.length_cons, List.length_cons, ih]

theorem decimal_double (ds : List Digit) : Decimal (double ds).1 := by
  induction ds with
  | nil => exact fun d absent => absurd absent List.not_mem_nil
  | cons d ds ih =>
    rw [double_cons]
    intro e present
    rcases List.mem_cons.1 present with rfl | later
    · rw [BitVec.toNat_umod]
      exact Nat.le_of_lt_succ (Nat.mod_lt _ (by decide))
    · exact ih e later

/-- A digit doubled with a carry does not leave its byte. -/
theorem toNat_doubled (digit : d.toNat ≤ 9) (bit : carry.toNat ≤ 1) :
    (d * 2 + carry).toNat = d.toNat * 2 + carry.toNat := by
  have two : (2 : Digit).toNat = 2 := rfl
  rw [BitVec.toNat_add, BitVec.toNat_mul, two]
  omega

theorem toNat_carry_le (decimal : Decimal ds) : (double ds).2.toNat ≤ 1 := by
  induction ds with
  | nil => exact Nat.zero_le 1
  | cons d ds ih =>
    have digit := decimal d List.mem_cons_self
    have bit := ih fun e present => decimal e (List.mem_cons_of_mem d present)
    have ten : (10 : Digit).toNat = 10 := rfl
    rw [double_cons, BitVec.toNat_udiv, toNat_doubled digit bit, ten]
    omega

/-- The carry and the digits denote twice what the digits did. -/
theorem digitsValue_double (decimal : Decimal ds) :
    (double ds).2.toNat * 10 ^ ds.length + digitsValue (double ds).1 = 2 * digitsValue ds := by
  induction ds with
  | nil => rfl
  | cons d ds ih =>
    have decimalRest : Decimal ds := fun e present => decimal e (List.mem_cons_of_mem d present)
    have digit := decimal d List.mem_cons_self
    have bit := toNat_carry_le decimalRest
    have doubled := toNat_doubled digit bit
    have ten : (10 : Digit).toNat = 10 := rfl
    have place := Nat.div_add_mod (d.toNat * 2 + (double ds).2.toNat) 10
    rw [double_cons, digitsValue, digitsValue, BitVec.toNat_udiv, BitVec.toNat_umod, doubled, ten,
      length_double, List.length_cons]
    calc (d.toNat * 2 + (double ds).2.toNat) / 10 * 10 ^ (ds.length + 1) +
          ((d.toNat * 2 + (double ds).2.toNat) % 10 * 10 ^ ds.length + digitsValue (double ds).1)
        = (10 * ((d.toNat * 2 + (double ds).2.toNat) / 10) +
            (d.toNat * 2 + (double ds).2.toNat) % 10) * 10 ^ ds.length +
            digitsValue (double ds).1 := by ring
      _ = (d.toNat * 2 + (double ds).2.toNat) * 10 ^ ds.length + digitsValue (double ds).1 := by
        rw [place]
      _ = 2 * (d.toNat * 10 ^ ds.length) +
            ((double ds).2.toNat * 10 ^ ds.length + digitsValue (double ds).1) := by ring
      _ = 2 * (d.toNat * 10 ^ ds.length + digitsValue ds) := by
        rw [ih decimalRest]
        ring

/-! ## All rounds -/

namespace Doubling

variable {s : Doubling} {k n : Nat}

/-- What is known after `k` rounds: the bits found and the digits left make up the fraction at the start,
doubled `k` times. -/
structure Holds (start : List Digit) (k : Nat) (s : Doubling) : Prop where
  length : s.digits.length = start.length
  decimal : Decimal s.digits
  small : s.bits.toNat < 2 ^ k
  value : s.bits.toNat * 10 ^ start.length + digitsValue s.digits = digitsValue start * 2 ^ k

theorem holds_zero (decimal : Decimal start) : Holds start 0 { digits := start, bits := 0 } := by
  refine ⟨rfl, decimal, Nat.one_pos, ?_⟩
  simp

namespace Holds

/-- No bit that was found is lost when the next is put below it. -/
theorem toNat_step (holds : Holds start k s) (room : k < 128) :
    s.step.bits.toNat = s.bits.toNat * 2 + (double s.digits).2.toNat := by
  have bit := toNat_carry_le holds.decimal
  have widened : ((double s.digits).2.setWidth 128).toNat = (double s.digits).2.toNat := by
    rw [BitVec.toNat_setWidth, Nat.mod_eq_of_lt (by omega)]
  have bound : 2 ^ (k + 1) ≤ 2 ^ 128 := Nat.pow_le_pow_right (by decide) room
  have small := holds.small
  rw [Nat.pow_succ] at bound
  -- The highest bit is still free, so that the shift loses none.
  have fits : s.bits.toNat * 2 ^ 1 < 2 ^ 128 := by omega
  have below : ((double s.digits).2.setWidth 128).toNat < 2 ^ 1 := by omega
  show (s.bits <<< 1 ||| (double s.digits).2.setWidth 128).toNat = _
  rw [toNat_shiftLeft_or fits below, widened, Nat.pow_one]

theorem step (holds : Holds start k s) (room : k < 128) : Holds start (k + 1) s.step := by
  have digits : s.step.digits = (double s.digits).1 := rfl
  have bits := holds.toNat_step room
  have bit := toNat_carry_le holds.decimal
  have small := holds.small
  have doubled := digitsValue_double holds.decimal
  rw [holds.length] at doubled
  refine ⟨?_, ?_, ?_, ?_⟩
  · rw [digits, length_double, holds.length]
  · rw [digits]
    exact decimal_double s.digits
  · rw [bits, Nat.pow_succ]
    omega
  · rw [digits, bits]
    calc (s.bits.toNat * 2 + (double s.digits).2.toNat) * 10 ^ start.length +
          digitsValue (double s.digits).1
        = 2 * (s.bits.toNat * 10 ^ start.length) + ((double s.digits).2.toNat * 10 ^ start.length +
            digitsValue (double s.digits).1) := by ring
      _ = 2 * (s.bits.toNat * 10 ^ start.length + digitsValue s.digits) := by rw [doubled]; ring
      _ = digitsValue start * 2 ^ (k + 1) := by rw [holds.value]; ring

/-- By induction on the rounds. -/
theorem run (holds : Holds start k s) (room : k + n ≤ 128) : Holds start (k + n) (s.run n) := by
  induction n generalizing k s with
  | zero => exact holds
  | succ n ih =>
    have next := ih (holds.step (by omega)) (by omega)
    rwa [Nat.add_right_comm] at next

/-- The bits that were found are the whole part of what the fraction has become. -/
theorem toNat_bits (holds : Holds start k s) :
    s.bits.toNat = digitsValue start * 2 ^ k / 10 ^ start.length := by
  have left := digitsValue_lt holds.decimal
  rw [holds.length] at left
  rw [← holds.value, Nat.add_comm, Nat.add_mul_div_right _ _ (Nat.pos_of_neZero _),
    Nat.div_eq_of_lt left, Nat.zero_add]

end Holds

end Doubling

/-! ## The fraction of a numeral -/

theorem Digit.toNat_ofChar (digit : isDigit c = true) :
    (Digit.ofChar c).toNat = c.toNat - '0'.toNat ∧ (Digit.ofChar c).toNat ≤ 9 := by
  rw [isDigit, Bool.and_eq_true, decide_eq_true_eq, decide_eq_true_eq] at digit
  have low : 48 ≤ c.toNat := digit.1
  have high : c.toNat ≤ 57 := digit.2
  have zero : '0'.toNat = 48 := rfl
  rw [ofChar, BitVec.toNat_sub, BitVec.toNat_ofNat, BitVec.toNat_ofNat, zero]
  omega

theorem decimal_ofChar (digits : ∀ c ∈ cs, isDigit c = true) : Decimal (cs.map Digit.ofChar) := by
  intro d present
  obtain ⟨c, inText, rfl⟩ := List.mem_map.1 present
  exact (Digit.toNat_ofChar (digits c inText)).2

theorem foldl_digits (digits : ∀ c ∈ cs, isDigit c = true) (n : Nat) :
    cs.foldl (fun n c => 10 * n + (c.toNat - '0'.toNat)) n =
      n * 10 ^ cs.length + digitsValue (cs.map Digit.ofChar) := by
  induction cs generalizing n with
  | nil => simp [digitsValue]
  | cons c cs ih =>
    obtain ⟨value, -⟩ := Digit.toNat_ofChar (digits c List.mem_cons_self)
    rw [List.foldl_cons, ih fun d later => digits d (List.mem_cons_of_mem c later), List.map_cons,
      digitsValue, List.length_map, List.length_cons, value]
    ring

theorem ofDigits_eq (digits : ∀ c ∈ cs, isDigit c = true) :
    ofDigits cs = digitsValue (cs.map Digit.ofChar) := by
  rw [ofDigits, foldl_digits digits, Nat.zero_mul, Nat.zero_add]

theorem ofDigits_lt (digits : ∀ c ∈ cs, isDigit c = true) : ofDigits cs < 10 ^ cs.length := by
  have bound := digitsValue_lt (decimal_ofChar digits)
  rwa [List.length_map, ← ofDigits_eq digits] at bound

/-- Zeros at the end count as places, and as nothing else. -/
theorem ofDigits_append_zeros (cs : List Char) (zeros : Nat) :
    ofDigits (cs ++ List.replicate zeros '0') = ofDigits cs * 10 ^ zeros := by
  induction zeros with
  | zero => simp
  | succ zeros ih =>
    rw [List.replicate_succ', ← List.append_assoc, ofDigits, List.foldl_append, ← ofDigits, ih]
    show 10 * (ofDigits cs * 10 ^ zeros) + 0 = _
    ring

theorem significant_append (cs : List Char) :
    ∃ zeros, cs = significant cs ++ List.replicate zeros '0' := by
  have allZero : ∀ c ∈ cs.rtakeWhile (· == '0'), c = '0' := by
    intro c taken
    have isZero := List.mem_rtakeWhile_imp taken
    exact eq_of_beq isZero
  refine ⟨(cs.rtakeWhile (· == '0')).length, ?_⟩
  rw [← List.eq_replicate_of_mem allZero]
  exact List.rdropWhile_append_rtakeWhile.symm

theorem isDigit_significant (digits : ∀ c ∈ cs, isDigit c = true) :
    ∀ c ∈ significant cs, isDigit c = true := by
  intro c kept
  have inText := List.dropWhile_subset _ (List.mem_reverse.1 kept)
  exact digits c (List.mem_reverse.1 inText)

/-- What is known of the state after `k` rounds. -/
theorem Doubling.holds_run (digits : ∀ c ∈ cs, isDigit c = true) {k : Nat} (room : k ≤ 128) :
    Holds ((significant cs).map Digit.ofChar) k ((Doubling.start cs).run k) := by
  have decimal := decimal_ofChar (isDigit_significant digits)
  have done := (holds_zero decimal).run (n := k) (by omega)
  rwa [Nat.zero_add] at done

theorem fractionBits_lt (digits : ∀ c ∈ cs, isDigit c = true) {bits : Nat} (room : bits ≤ 128) :
    (fractionBits cs bits).toNat < 2 ^ bits :=
  (Doubling.holds_run digits room).small

/-- The bits of a fraction are the fraction scaled and rounded down, whatever the number of its digits. -/
theorem toNat_fractionBits (digits : ∀ c ∈ cs, isDigit c = true) {bits : Nat} (room : bits ≤ 128) :
    (fractionBits cs bits).toNat = ofDigits cs * 2 ^ bits / 10 ^ cs.length := by
  obtain ⟨zeros, split⟩ := significant_append cs
  have value : ofDigits cs = ofDigits (significant cs) * 10 ^ zeros := by
    rw [← ofDigits_append_zeros, ← split]
  have places : cs.length = (significant cs).length + zeros := by
    rw [← List.length_replicate (n := zeros) (a := '0'), ← List.length_append, ← split]
  have found := (Doubling.holds_run digits room).toNat_bits
  rw [← ofDigits_eq (isDigit_significant digits), List.length_map] at found
  rw [value, places, Nat.pow_add, Nat.mul_right_comm, Nat.mul_div_mul_right _ _ (Nat.pos_of_neZero _)]
  exact found

end InstrumentBus.FixedPoint
