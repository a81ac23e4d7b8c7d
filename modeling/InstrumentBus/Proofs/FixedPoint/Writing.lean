import InstrumentBus.Proofs.FixedPoint.Expansion
import InstrumentBus.Proofs.FixedPoint.Reading
import InstrumentBus.Proofs.Text.Digits

/-!
# Numbers are written exactly

A number is written as the one text of its canonical form that denotes it (`toText_exact`): the sign is a
minus or nothing, there is no zero too many in front or at the end, and the value is exact. The text is read
back as the number, with one exception: the least number of 128 bits, whose magnitude is refused when it is
read (`read_back_iff`).
-/

namespace InstrumentBus.FixedPoint

/-! ## Canonical form -/

/-- The text of a numeral in canonical form: a minus if the numeral is negative, a whole part without a
leading zero, which is `0` if it is zero, and behind a point the digits of the fraction, of which the last
is not zero. Without such digits there is no point either. -/
structure Numeral.Canonical (n : Numeral) (text : List Char) : Prop where
  whole : IsDigits n.whole
  leading : n.whole = ['0'] ∨ n.whole.head? ≠ some '0'
  fraction : ∀ c ∈ n.fraction, isDigit c = true
  trailing : n.fraction.getLast? ≠ some '0'
  text : text = (if n.negative then ['-'] else []) ++ n.whole ++
    if n.fraction = [] then [] else '.' :: n.fraction

variable {n : Numeral} {text : List Char} {v : Int} {bits : Nat}

namespace Numeral.Canonical

theorem spells (canonical : n.Canonical text) : n.Spells text := by
  refine ⟨_, _, ?_, canonical.whole, ?_, canonical.text⟩
  · cases n.negative with
    | false => exact .none
    | true => exact .minus
  · split
    · next none =>
      rw [none]
      exact .none
    · next some => exact .point ⟨some, canonical.fraction⟩

theorem isBlank_of_isDigit {c : Char} (digit : isDigit c = true) : Text.isBlank c = false := by
  rw [isDigit, Bool.and_eq_true, decide_eq_true_eq, decide_eq_true_eq] at digit
  have low : 48 ≤ c.toNat := digit.1
  have high : c.toNat ≤ 57 := digit.2
  simp only [Text.isBlank, Text.blankRanges, List.any_cons, List.any_nil, Bool.or_false,
    Bool.or_eq_false_iff, Bool.and_eq_false_imp, decide_eq_true_eq, decide_eq_false_iff_not]
  omega

/-- There is no white space in the text. -/
theorem not_blank (canonical : n.Canonical text) : ∀ c ∈ text, Text.isBlank c = false := by
  intro c present
  rw [canonical.text, List.mem_append, List.mem_append] at present
  rcases present with (sign | whole) | point
  · split at sign
    · rw [List.mem_singleton.1 sign]
      decide
    · exact absurd sign List.not_mem_nil
  · exact isBlank_of_isDigit (canonical.whole.digits c whole)
  · split at point
    · exact absurd point List.not_mem_nil
    · rcases List.mem_cons.1 point with rfl | fraction
      · decide
      · exact isBlank_of_isDigit (canonical.fraction c fraction)

theorem trimmed (canonical : n.Canonical text) : Text.Trimmed text text := by
  refine ⟨⟨[], [], nofun, nofun, by simp⟩, fun c first => ?_, fun c last => ?_⟩
  · exact canonical.not_blank c (List.mem_of_mem_head? first)
  · exact canonical.not_blank c (List.mem_of_getLast? last)

end Numeral.Canonical

/-! ## What is written -/

/-- The magnitude of a number, which has room in 128 bits even for the least of them. -/
def magnitudeOf (v : Int) : BitVec 128 :=
  BitVec.ofNat 128 v.natAbs

/-- The numeral that is written for `v / 2 ^ bits`. -/
def numeralOf (v : Int) (bits : Nat) : Numeral :=
  { negative := v < 0
    whole := Nat.toDigits 10 (magnitudeOf v >>> bits).toNat
    fraction := fractionDigits bits (magnitudeOf v &&& fractionMask bits) }

theorem toNat_magnitudeOf (least : -2 ^ 127 ≤ v) (greatest : v < 2 ^ 127) :
    (magnitudeOf v).toNat = v.natAbs := by
  rw [magnitudeOf, BitVec.toNat_ofNat, Nat.mod_eq_of_lt (by omega)]

theorem isDigits_toDigits (k : Nat) : IsDigits (Nat.toDigits 10 k) :=
  ⟨Nat.toDigits_ne_nil, fun _ listed => Nat.isDigit_of_mem_toDigits (by decide) (by decide) listed⟩

theorem toDigits_leading (k : Nat) :
    Nat.toDigits 10 k = ['0'] ∨ (Nat.toDigits 10 k).head? ≠ some '0' := by
  rcases Nat.eq_zero_or_pos k with rfl | positive
  · exact .inl rfl
  · exact .inr (head?_toDigits_ne positive)

theorem fraction_room (le : bits ≤ maxFractionBits) : bits ≤ 124 :=
  Nat.le_trans le (by decide)

theorem fraction_small (le : bits ≤ maxFractionBits) (magnitude : BitVec 128) :
    (magnitude &&& fractionMask bits).toNat < 2 ^ bits :=
  toNat_and_fractionMask_lt (Nat.lt_of_le_of_lt le (by decide)) magnitude

/-- What is written denotes the number exactly. -/
theorem magnitude_numeralOf (least : -2 ^ 127 ≤ v) (greatest : v < 2 ^ 127)
    (le : bits ≤ maxFractionBits) : (numeralOf v bits).magnitude = v.natAbs / 2 ^ bits := by
  have small := fraction_small le (magnitudeOf v)
  have exact := ofDigits_fractionDigits (fraction_room le) small
  have whole : ofDigits (numeralOf v bits).whole = v.natAbs / 2 ^ bits := by
    rw [← toNat_magnitudeOf least greatest, ← Nat.shiftRight_eq_div_pow, ← BitVec.toNat_ushiftRight]
    exact Nat.ofDigitChars_ten_toDigits
  rw [toNat_and_fractionMask (Nat.lt_of_le_of_lt le (by decide)),
    toNat_magnitudeOf least greatest] at exact
  rw [Numeral.magnitude, whole]
  have split := Nat.div_add_mod v.natAbs (2 ^ bits)
  have exactRat : (ofDigits (numeralOf v bits).fraction : ℚ) * 2 ^ bits =
      (v.natAbs % 2 ^ bits : Nat) * 10 ^ (numeralOf v bits).fraction.length := by
    exact_mod_cast exact
  have splitRat : (2 : ℚ) ^ bits * (v.natAbs / 2 ^ bits : Nat) + (v.natAbs % 2 ^ bits : Nat) =
      v.natAbs := by
    exact_mod_cast split
  field_simp
  rw [add_mul, exactRat, ← splitRat]
  ring

/-- The sign of what is written and the magnitude make up the number. -/
theorem signum_mul_natAbs (v : Int) (bits : Nat) : (numeralOf v bits).signum * v.natAbs = v := by
  rw [Numeral.signum, numeralOf]
  split
  · next negative =>
    have below : v < 0 := of_decide_eq_true negative
    omega
  · next positive =>
    have above : ¬v < 0 := fun below => positive (decide_eq_true below)
    omega

theorem value_numeralOf (least : -2 ^ 127 ≤ v) (greatest : v < 2 ^ 127)
    (le : bits ≤ maxFractionBits) :
    (numeralOf v bits).signum * (numeralOf v bits).magnitude = v / 2 ^ bits := by
  have signed := congrArg (Int.cast : Int → ℚ) (signum_mul_natAbs v bits)
  rw [Int.cast_mul, Int.cast_natCast] at signed
  rw [magnitude_numeralOf least greatest le, ← mul_div_assoc, signed]

/-- The text that is written is the canonical form of this numeral. -/
theorem canonical_toText (v : Int) (le : bits ≤ maxFractionBits) :
    ∃ text, toText v bits = .ok text ∧ (numeralOf v bits).Canonical text.toList := by
  have small := fraction_small le (magnitudeOf v)
  have unsigned : expansion (magnitudeOf v) bits = (numeralOf v bits).whole ++
      if (numeralOf v bits).fraction = [] then [] else '.' :: (numeralOf v bits).fraction := by
    simp only [expansion, numeralOf, fractionDigits_eq_nil_iff]
  refine ⟨_, if_neg (Nat.not_lt.2 le), isDigits_toDigits _, toDigits_leading _,
    isDigit_fractionDigits (fraction_room le) small,
    getLast?_fractionDigits_ne (fraction_room le) small, ?_⟩
  have sign : (numeralOf v bits).negative = true ↔ v < 0 := decide_eq_true_iff
  rw [String.toList_ofList, ← magnitudeOf, unsigned, List.append_assoc]
  by_cases below : v < 0
  · rw [if_pos below, if_pos (sign.2 below), List.singleton_append]
  · rw [if_neg below, if_neg fun negative => below (sign.1 negative), List.nil_append]

/-- Every number of 128 bits is written, as the text in canonical form that denotes it exactly: the sign is
a minus just if the number is negative, and there are at most as many digits behind the point as there are
fractional bits. The loop that finds these digits ends, and no operation in it leaves the 128 bits. -/
theorem toText_exact (least : -2 ^ 127 ≤ v) (greatest : v < 2 ^ 127) (le : bits ≤ maxFractionBits) :
    ∃ (text : String) (n : Numeral), toText v bits = .ok text ∧ n.Canonical text.toList ∧
      (n.negative = true ↔ v < 0) ∧ n.signum * n.magnitude = v / 2 ^ bits ∧
      n.fraction.length ≤ bits ∧ (magnitudeOf v).toNat = v.natAbs ∧
      RoundsFit bits (magnitudeOf v &&& fractionMask bits) := by
  obtain ⟨text, written, canonical⟩ := canonical_toText v le
  have small := fraction_small le (magnitudeOf v)
  have length := length_fractionDigits_le (fraction_room le) small (Nat.zero_le bits)
    (Nat.one_dvd _)
  exact ⟨text, numeralOf v bits, written, canonical, decide_eq_true_iff,
    value_numeralOf least greatest le, length, toNat_magnitudeOf least greatest,
    roundsFit (fraction_room le) small⟩

/-- The least number is written although its magnitude takes all bits, and three quarters with their minus
sign and their last digit. -/
theorem least_number_is_written :
    (-2 ^ 127 ≤ (-2 ^ 127 : Int) ∧ (-2 ^ 127 : Int) < 2 ^ 127 ∧ 120 ≤ maxFractionBits) ∧
      (∃ n : Numeral, toText (-2 ^ 127) 120 = .ok "-128" ∧ n.Canonical "-128".toList ∧
        n.signum * n.magnitude = (-2 ^ 127 : Int) / 2 ^ 120) ∧
      (-2 ^ 127 ≤ (-3 : Int) ∧ (-3 : Int) < 2 ^ 127 ∧ 2 ≤ maxFractionBits) ∧
      ∃ n : Numeral, toText (-3) 2 = .ok "-0.75" ∧ n.Canonical "-0.75".toList ∧
        n.fraction.length ≤ 2 := by
  have range : -2 ^ 127 ≤ (-2 ^ 127 : Int) ∧ (-2 ^ 127 : Int) < 2 ^ 127 ∧ 120 ≤ maxFractionBits := by
    decide
  have range' : -2 ^ 127 ≤ (-3 : Int) ∧ (-3 : Int) < 2 ^ 127 ∧ 2 ≤ maxFractionBits := by decide
  obtain ⟨text, n, written, canonical, -, value, -⟩ := toText_exact range.1 range.2.1 range.2.2
  obtain ⟨text', n', written', canonical', -, -, length, -⟩ :=
    toText_exact range'.1 range'.2.1 range'.2.2
  have least : toText (-2 ^ 127) 120 = .ok "-128" := by decide +kernel
  have quarters : toText (-3) 2 = .ok "-0.75" := by decide +kernel
  rw [least] at written
  rw [quarters] at written'
  cases written
  cases written'
  exact ⟨range, ⟨n, least, canonical, value⟩, range', n', quarters, canonical', length⟩

/-! ## Reading back -/

theorem floor_magnitude_numeralOf (least : -2 ^ 127 ≤ v) (greatest : v < 2 ^ 127)
    (le : bits ≤ maxFractionBits) : ⌊(numeralOf v bits).magnitude⌋₊ = v.natAbs / 2 ^ bits := by
  rw [magnitude_numeralOf least greatest le]
  exact_mod_cast Nat.floor_div_eq_div (K := ℚ) v.natAbs (2 ^ bits)

theorem floor_magnitude_numeralOf_mul (least : -2 ^ 127 ≤ v) (greatest : v < 2 ^ 127)
    (le : bits ≤ maxFractionBits) :
    ⌊(numeralOf v bits).magnitude * 2 ^ bits⌋₊ = v.natAbs := by
  rw [magnitude_numeralOf least greatest le, div_mul_cancel₀ _ (by positivity), Nat.floor_natCast]

/-- The whole part of a magnitude leaves room for the fraction and the sign, unless it is the magnitude of
the least number. -/
theorem le_whole_iff (least : -2 ^ 127 ≤ v) (greatest : v < 2 ^ 127) (le : bits ≤ maxFractionBits) :
    2 ^ (127 - bits) ≤ v.natAbs / 2 ^ bits ↔ v = -2 ^ 127 := by
  have power : 2 ^ (127 - bits) * 2 ^ bits = 2 ^ 127 := by
    rw [← Nat.pow_add, Nat.sub_add_cancel (Nat.le_trans le (by decide))]
  rw [Nat.le_div_iff_mul_le (Nat.two_pow_pos bits), power]
  omega

/-- The text of a number is read back as the number, unless it is the least number of 128 bits: there is no
room for its magnitude beside the sign, and the text is refused as one that does not fit. -/
theorem read_back_iff (least : -2 ^ 127 ≤ v) (greatest : v < 2 ^ 127) (le : bits ≤ maxFractionBits) :
    ∃ text, toText v bits = .ok text ∧ (ofText text bits = .ok v ↔ v ≠ -2 ^ 127) ∧
      (ofText text bits = .error .overflow ↔ v = -2 ^ 127) := by
  obtain ⟨text, written, canonical⟩ := canonical_toText v le
  refine ⟨text, written, ?_⟩
  rw [ofText_of_spells le canonical.trimmed canonical.spells,
    floor_magnitude_numeralOf least greatest le, floor_magnitude_numeralOf_mul least greatest le,
    signum_mul_natAbs]
  by_cases same : v = -2 ^ 127
  · rw [if_pos ((le_whole_iff least greatest le).2 same)]
    exact ⟨iff_of_false nofun (not_not.2 same), iff_of_true rfl same⟩
  · rw [if_neg fun large => same ((le_whole_iff least greatest le).1 large)]
    exact ⟨iff_of_true rfl same, iff_of_false nofun same⟩

/-- The neighbour of the least number is read back, with all bits of its magnitude behind the point but
seven. -/
theorem neighbour_is_read_back :
    (-2 ^ 127 ≤ (1 - 2 ^ 127 : Int) ∧ (1 - 2 ^ 127 : Int) < 2 ^ 127 ∧ 120 ≤ maxFractionBits) ∧
      ∃ text, toText (1 - 2 ^ 127) 120 = .ok text ∧ ofText text 120 = .ok (1 - 2 ^ 127) := by
  have range : -2 ^ 127 ≤ (1 - 2 ^ 127 : Int) ∧ (1 - 2 ^ 127 : Int) < 2 ^ 127 ∧
      120 ≤ maxFractionBits := by decide
  obtain ⟨text, written, read, -⟩ := read_back_iff range.1 range.2.1 range.2.2
  exact ⟨range, text, written, read.2 (by decide)⟩

/-- The text of the least number is refused as one that does not fit. -/
theorem least_number_is_refused :
    toText (-2 ^ 127) 0 = .ok "-170141183460469231731687303715884105728" ∧
      ofText "-170141183460469231731687303715884105728" 0 = .error .overflow := by
  constructor
  · decide +kernel
  · decide +kernel

end InstrumentBus.FixedPoint
