import InstrumentBus.Proofs.FixedPoint.Writing

/-!
# Texts that come back

A text in canonical form is determined by the number that it denotes (`Numeral.Canonical.unique`): its whole
part is what is written for a natural number, and two fractions of one value that do not end in zero have the
same digits. So a canonical text is written back as it was read, and what is written for any text that can be
read is read as the same number again (`canonical_texts_come_back`).
-/

namespace InstrumentBus.FixedPoint

variable {cs ds : List Char} {c d : Char} {m n : Numeral} {s t : List Char} {v : Int} {bits : Nat}

/-! ## Digits of one number -/

theorem ofDigits_concat (cs : List Char) (c : Char) :
    ofDigits (cs ++ [c]) = 10 * ofDigits cs + (c.toNat - '0'.toNat) := by
  simp [ofDigits]

/-- A digit is less than ten above the character of zero. -/
theorem toNat_digit (digit : isDigit c = true) : c.toNat = '0'.toNat + (c.toNat - '0'.toNat) ∧
    c.toNat - '0'.toNat < 10 := by
  rw [isDigit, Bool.and_eq_true, decide_eq_true_eq, decide_eq_true_eq] at digit
  have low : 48 ≤ c.toNat := digit.1
  have high : c.toNat ≤ 57 := digit.2
  have zero : '0'.toNat = 48 := rfl
  omega

theorem digitChar_digit (digit : isDigit c = true) : (c.toNat - '0'.toNat).digitChar = c := by
  obtain ⟨split, small⟩ := toNat_digit digit
  have written : ∀ k < 10, k.digitChar.toNat = '0'.toNat + k := by decide
  apply Char.toNat_inj.1
  rw [written _ small, ← split]

/-- Digits without a zero in front are what is written for their number. -/
theorem toDigits_ofDigits (digits : IsDigits cs) (leading : cs.head? ≠ some '0') :
    Nat.toDigits 10 (ofDigits cs) = cs := by
  induction cs using List.reverseRecOn with
  | nil => exact absurd rfl digits.nonempty
  | append_singleton front c ih =>
    have last : isDigit c = true := digits.digits c (by simp)
    obtain ⟨-, small⟩ := toNat_digit last
    rw [ofDigits_concat]
    rcases front with _ | ⟨first, more⟩
    · have single : 10 * ofDigits [] + (c.toNat - '0'.toNat) < 10 := by
        rw [show ofDigits [] = 0 from rfl]
        omega
      rw [Nat.toDigits_of_lt_base single, show ofDigits [] = 0 from rfl, Nat.mul_zero, Nat.zero_add,
        digitChar_digit last, List.nil_append]
    · have front : Nat.toDigits 10 (ofDigits (first :: more)) = first :: more :=
        ih ⟨List.cons_ne_nil _ _, fun d listed => digits.digits d (List.mem_append_left _ listed)⟩ leading
      have positive : 0 < ofDigits (first :: more) := by
        rcases Nat.eq_zero_or_pos (ofDigits (first :: more)) with zero | positive
        · rw [zero] at front
          exact absurd (congrArg List.head? front).symm leading
        · exact positive
      have several : 10 ≤ 10 * ofDigits (first :: more) + (c.toNat - '0'.toNat) := by omega
      rw [Nat.toDigits_of_base_le (by decide) several, Nat.mul_add_div (by decide),
        Nat.div_eq_of_lt small, Nat.add_zero, Nat.mul_add_mod, Nat.mod_eq_of_lt small, front,
        digitChar_digit last]

/-- As many digits of the same number are the same digits. -/
theorem eq_of_ofDigits_eq (left : ∀ c ∈ cs, isDigit c = true) (right : ∀ d ∈ ds, isDigit d = true)
    (length : cs.length = ds.length) (value : ofDigits cs = ofDigits ds) : cs = ds := by
  induction cs using List.reverseRecOn generalizing ds with
  | nil => exact (List.length_eq_zero_iff.1 length.symm).symm
  | append_singleton front c ih =>
    rcases List.eq_nil_or_concat ds with rfl | ⟨front', d, rfl⟩
    · simp at length
    · rw [List.concat_eq_append] at right length value ⊢
      rw [ofDigits_concat, ofDigits_concat] at value
      obtain ⟨splitC, smallC⟩ := toNat_digit (left c (by simp))
      obtain ⟨splitD, smallD⟩ := toNat_digit (right d (by simp))
      have same : c = d := Char.toNat_inj.1 (by omega)
      have fronts : front = front' :=
        ih (fun c listed => left c (List.mem_append_left _ listed))
          (fun d listed => right d (List.mem_append_left _ listed)) (by simpa using length) (by omega)
      rw [fronts, same]

/-- Two fractions of one value that do not end in zero are the same digits, if the first is no longer than the
second. -/
theorem fraction_eq_of_le (left : ∀ c ∈ cs, isDigit c = true) (right : ∀ d ∈ ds, isDigit d = true)
    (trailing : ds.getLast? ≠ some '0') (shorter : cs.length ≤ ds.length)
    (value : ofDigits cs * 10 ^ ds.length = ofDigits ds * 10 ^ cs.length) : cs = ds := by
  obtain ⟨zeros, length⟩ := Nat.exists_eq_add_of_le shorter
  have padded : cs ++ List.replicate zeros '0' = ds := by
    apply eq_of_ofDigits_eq
    · intro c listed
      rcases List.mem_append.1 listed with digit | zero
      · exact left c digit
      · rw [List.eq_of_mem_replicate zero]
        decide
    · exact right
    · simp [length]
    · rw [ofDigits_append_zeros]
      apply Nat.eq_of_mul_eq_mul_right (Nat.pow_pos (by decide) : 0 < 10 ^ cs.length)
      rw [Nat.mul_assoc, ← Nat.pow_add, Nat.add_comm zeros, ← length, value]
  rcases Nat.eq_zero_or_pos zeros with none | some
  · rwa [none, List.replicate_zero, List.append_nil] at padded
  · refine absurd ?_ trailing
    rw [← padded, List.getLast?_append, List.getLast?_replicate, if_neg (Nat.ne_of_gt some)]
    rfl

theorem fraction_eq (left : ∀ c ∈ cs, isDigit c = true) (right : ∀ d ∈ ds, isDigit d = true)
    (trailing : cs.getLast? ≠ some '0') (trailing' : ds.getLast? ≠ some '0')
    (value : ofDigits cs * 10 ^ ds.length = ofDigits ds * 10 ^ cs.length) : cs = ds := by
  rcases Nat.le_total cs.length ds.length with shorter | longer
  · exact fraction_eq_of_le left right trailing' shorter value
  · exact (fraction_eq_of_le right left trailing longer value.symm).symm

/-! ## Canonical texts of one number -/

namespace Numeral

theorem Canonical.whole_eq (canonical : n.Canonical s) : n.whole = Nat.toDigits 10 (ofDigits n.whole) := by
  rcases canonical.leading with zero | nonzero
  · rw [zero]
    rfl
  · exact (toDigits_ofDigits canonical.whole nonzero).symm

/-- The digits of a canonical text are determined by the magnitude that they denote. -/
theorem Canonical.digits_eq (left : m.Canonical s) (right : n.Canonical t)
    (value : m.magnitude = n.magnitude) : m.whole = n.whole ∧ m.fraction = n.fraction := by
  have whole : ofDigits m.whole = ofDigits n.whole := by
    rw [← floor_magnitude left.fraction, ← floor_magnitude right.fraction, value]
  refine ⟨by rw [left.whole_eq, right.whole_eq, whole], ?_⟩
  apply fraction_eq left.fraction right.fraction left.trailing right.trailing
  rw [magnitude, magnitude, whole, add_right_inj, div_eq_div_iff (by positivity) (by positivity)] at value
  exact_mod_cast value

theorem magnitude_nonneg (n : Numeral) : 0 ≤ n.magnitude := by
  unfold magnitude
  positivity

/-- A canonical text that denotes zero is a zero, with or without a minus. -/
theorem Canonical.text_of_magnitude_eq_zero (canonical : n.Canonical s) (zero : n.magnitude = 0) :
    s = if n.negative then ['-', '0'] else ['0'] := by
  have digits : IsDigits ['0'] := ⟨List.cons_ne_nil _ _, List.all_eq_true.1 rfl⟩
  have plain : Numeral.Canonical ⟨n.negative, ['0'], []⟩ (if n.negative then ['-', '0'] else ['0']) := by
    refine ⟨digits, .inl rfl, nofun, nofun, ?_⟩
    cases n.negative <;> rfl
  obtain ⟨whole, fraction⟩ := canonical.digits_eq plain (zero.trans (by norm_num [magnitude, ofDigits]))
  rw [canonical.text, whole, fraction, plain.text]

/-- A canonical text has a minus just if its number is negative, unless it is a zero with a minus. -/
theorem Canonical.negative_iff (canonical : n.Canonical s) (plain : s ≠ ['-', '0']) :
    n.negative = true ↔ (n.signum * n.magnitude : ℚ) < 0 := by
  have above := n.magnitude_nonneg
  cases sign : n.negative with
  | false => simpa [signum, sign] using above
  | true =>
    have nonzero : n.magnitude ≠ 0 := fun zero => by
      have shown := canonical.text_of_magnitude_eq_zero zero
      rw [sign, if_pos rfl] at shown
      exact plain shown
    simpa [signum, sign] using lt_of_le_of_ne above nonzero.symm

end Numeral

variable {text : String}

/-- A canonical text spells the numeral that is written for its number, unless it is a zero with a minus. -/
theorem Numeral.Canonical.eq_numeralOf (canonical : n.Canonical text.toList) (plain : text ≠ "-0")
    (fits : v.natAbs < 2 ^ 127) (le : bits ≤ maxFractionBits)
    (value : (n.signum * n.magnitude : ℚ) = v / 2 ^ bits) : n = numeralOf v bits := by
  obtain ⟨text', -, written⟩ := canonical_toText v le
  have exact : ((numeralOf v bits).signum * (numeralOf v bits).magnitude : ℚ) = v / 2 ^ bits :=
    value_numeralOf (by omega) (by omega) le
  have power : (0 : ℚ) < 2 ^ bits := by positivity
  have minus : text.toList ≠ ['-', '0'] := fun same =>
    plain (String.toList_injective (same.trans (by decide)))
  have sign : n.negative = (numeralOf v bits).negative := by
    rw [Bool.eq_iff_iff, canonical.negative_iff minus, value, div_neg_iff]
    simp [numeralOf, power, power.not_gt]
  have magnitude : n.magnitude = (numeralOf v bits).magnitude := by
    have signs : n.signum = (numeralOf v bits).signum := by rw [signum, signum, sign]
    have nonzero : ((numeralOf v bits).signum : ℚ) ≠ 0 := by
      rw [signum]
      split <;> norm_num
    rw [← exact, signs] at value
    exact mul_left_cancel₀ nonzero value
  obtain ⟨whole, fraction⟩ := canonical.digits_eq written magnitude
  exact congr (congr (congrArg Numeral.mk sign) whole) fraction

/-! ## Back and forth -/

/-- What is written for a number is read as the number, unless it is the least of 128 bits. -/
theorem ofText_of_canonical_numeralOf (canonical : (numeralOf v bits).Canonical text.toList)
    (fits : v.natAbs < 2 ^ 127) (le : bits ≤ maxFractionBits) : ofText text bits = .ok v := by
  have least : -2 ^ 127 ≤ v := by omega
  have greatest : v < 2 ^ 127 := by omega
  have room : ¬2 ^ (127 - bits) ≤ v.natAbs / 2 ^ bits := fun large => by
    have extreme := (le_whole_iff least greatest le).1 large
    omega
  rw [ofText_of_spells le canonical.trimmed canonical.spells, floor_magnitude_numeralOf least greatest le,
    if_neg room, floor_magnitude_numeralOf_mul least greatest le, signum_mul_natAbs]

/-- A whole part that leaves room for the fraction and the sign leaves no magnitude too large. -/
theorem Numeral.floor_magnitude_mul_lt (le : bits ≤ maxFractionBits)
    (room : ⌊n.magnitude⌋₊ < 2 ^ (127 - bits)) : ⌊n.magnitude * 2 ^ bits⌋₊ < 2 ^ 127 := by
  have below : n.magnitude < (2 ^ (127 - bits) : Nat) := (Nat.floor_lt n.magnitude_nonneg).1 room
  have scaled : n.magnitude * 2 ^ bits < (2 ^ 127 : Nat) := by
    have split : 127 = 127 - bits + bits := (Nat.sub_add_cancel (Nat.le_trans le (by decide))).symm
    rw [split, Nat.pow_add]
    push_cast at below ⊢
    gcongr
  exact (Nat.floor_lt (mul_nonneg n.magnitude_nonneg (by positivity))).2 scaled

/-- What is read from a text is the number that it denotes, truncated, and takes less than 128 bits. -/
theorem exists_spells_of_ofText (le : bits ≤ maxFractionBits) (read : ofText text bits = .ok v) :
    ∃ t n, Text.Trimmed text.toList t ∧ Numeral.Spells n t ∧ v = n.signum * ⌊n.magnitude * 2 ^ bits⌋₊ ∧
      v.natAbs < 2 ^ 127 := by
  have trimmed := Text.trimmed_trim text.toList
  by_cases spelled : ∃ n : Numeral, n.Spells (Text.trim text.toList)
  · rcases spelled with ⟨n, spelled⟩
    rw [ofText_of_spells le trimmed spelled] at read
    split at read
    · cases read
    · next room =>
      have small := Numeral.floor_magnitude_mul_lt le (Nat.lt_of_not_le room)
      have value := Except.ok.inj read
      refine ⟨_, n, trimmed, spelled, value.symm, ?_⟩
      rw [← value, Int.natAbs_mul, Int.natAbs_natCast, Numeral.signum]
      split <;> simpa using small
  · rw [ofText_of_not_spelled le trimmed spelled] at read
    cases read

/-- A text in canonical form, other than a zero with a minus, which denotes a multiple of `2 ^ -bits` is read
as this multiple and written back as it was, character for character, if the magnitude takes less than 128
bits. What is written for any text that can be read is canonical: it is read as the same number again, and
denotes the number of the text, truncated toward zero to such a multiple. -/
theorem canonical_texts_come_back (le : bits ≤ maxFractionBits) :
    (∀ (text : String) (n : Numeral) (v : Int), n.Canonical text.toList → text ≠ "-0" →
      v.natAbs < 2 ^ 127 → (n.signum * n.magnitude : ℚ) = v / 2 ^ bits →
        ofText text bits = .ok v ∧ toText v bits = .ok text) ∧
    (∀ (text : String) (v : Int), ofText text bits = .ok v →
      ∃ (written : String) (n : Numeral), toText v bits = .ok written ∧ ofText written bits = .ok v ∧
        n.Canonical written.toList ∧
        ∃ t m, Text.Trimmed text.toList t ∧ Numeral.Spells m t ∧
          (n.signum * n.magnitude : ℚ) = m.signum * ⌊m.magnitude * 2 ^ bits⌋₊ / 2 ^ bits) := by
  constructor
  · intro text n v canonical plain fits value
    have own := canonical.eq_numeralOf plain fits le value
    obtain ⟨text', written, canonical'⟩ := canonical_toText v le
    have same : text' = text := by
      apply String.toList_injective
      rw [canonical'.text, canonical.text, own]
    rw [same] at written
    rw [own] at canonical
    exact ⟨ofText_of_canonical_numeralOf canonical fits le, written⟩
  · intro text v read
    obtain ⟨t, m, trimmed, spelled, truncated, fits⟩ := exists_spells_of_ofText le read
    obtain ⟨written, shown, canonical⟩ := canonical_toText v le
    have value : ((numeralOf v bits).signum * (numeralOf v bits).magnitude : ℚ) = v / 2 ^ bits :=
      value_numeralOf (by omega) (by omega) le
    have scaled : (v : ℚ) = m.signum * ⌊m.magnitude * 2 ^ bits⌋₊ := by
      exact_mod_cast congrArg Int.cast truncated
    rw [scaled] at value
    exact ⟨written, _, shown, ofText_of_canonical_numeralOf canonical fits le, canonical, t, m, trimmed,
      spelled, value⟩

/-- Quarters below zero come back as they were, and a text with a sign and zeros that it does not need comes
back as the quarters that it was truncated to. -/
theorem quarters_come_back :
    2 ≤ maxFractionBits ∧ Numeral.Canonical ⟨true, ['1', '2'], ['7', '5']⟩ "-12.75".toList ∧
      ofText "-12.75" 2 = .ok (-51) ∧ toText (-51) 2 = .ok "-12.75" ∧
      ofText " +007.9990\n" 2 = .ok 31 ∧ toText 31 2 = .ok "7.75" ∧ ofText "7.75" 2 = .ok 31 := by
  have le : 2 ≤ maxFractionBits := by decide
  obtain ⟨back, forth⟩ := canonical_texts_come_back le
  have canonical : Numeral.Canonical ⟨true, ['1', '2'], ['7', '5']⟩ "-12.75".toList :=
    ⟨⟨List.cons_ne_nil _ _, List.all_eq_true.1 rfl⟩, .inr (by decide), List.all_eq_true.1 rfl, by decide, by decide⟩
  have digits : ofDigits ['1', '2'] = 12 ∧ ofDigits ['7', '5'] = 75 := by decide
  obtain ⟨read, written⟩ := back "-12.75" _ (-51) canonical (by decide) (by decide)
    (by norm_num [Numeral.signum, Numeral.magnitude, digits])
  have truncated : ofText " +007.9990\n" 2 = .ok 31 := by decide +kernel
  obtain ⟨text, n, shown, again, -⟩ := forth _ _ truncated
  have quarters : toText 31 2 = .ok "7.75" := by decide +kernel
  rw [quarters] at shown
  cases shown
  exact ⟨le, canonical, read, written, truncated, quarters, again⟩

end InstrumentBus.FixedPoint
