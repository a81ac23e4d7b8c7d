import InstrumentBus.Proofs.FixedPoint.Numeral
import InstrumentBus.FixedPoint

/-!
# Texts are read exactly

A text is read as the number that it denotes, scaled and truncated toward zero, unless it is no numeral or
its whole part leaves no room for the fraction and the sign (`ofText_truncates`). The guard on the whole
part is the only place where a magnitude can be found too large: behind it nothing overflows.
-/

namespace InstrumentBus.FixedPoint

variable {text : String} {n : Numeral} {bits : Nat} {whole : BitVec 128}

/-- No operation of the conversion leaves the range of its type: not the doubling of a digit in its byte,
not the next bit below those found before, and not the fraction below a whole part that has passed. -/
structure Numeral.Unwrapped (n : Numeral) (bits : Nat) : Prop where
  digits : ∀ k < bits, ∀ front d back,
    ((Doubling.start n.fraction).run k).digits = front ++ d :: back →
      d.toNat * 2 + (double back).2.toNat < 2 ^ 8
  found : ∀ k < bits,
    ((Doubling.start n.fraction).run k).bits.toNat * 2 +
      (double ((Doubling.start n.fraction).run k).digits).2.toNat < 2 ^ 128
  joined : ∀ whole, n.whole? = some whole → whole >>> (127 - bits) = 0 →
    whole.toNat * 2 ^ bits + (fractionBits n.fraction bits).toNat < 2 ^ 127

theorem shifted_eq_zero_iff {k : Nat} : whole >>> k = 0 ↔ whole.toNat < 2 ^ k := by
  rw [← BitVec.toNat_inj, BitVec.toNat_ushiftRight, Nat.shiftRight_eq_div_pow]
  show whole.toNat / 2 ^ k = 0 ↔ _
  rw [Nat.div_eq_zero_iff_lt (Nat.two_pow_pos k)]

namespace Numeral

theorem whole?_of_lt (fits : ofDigits n.whole < 2 ^ 128) :
    ∃ whole, n.whole? = some whole ∧ whole.toNat = ofDigits n.whole := by
  refine ⟨BitVec.ofNat 128 (ofDigits n.whole), if_pos fits, ?_⟩
  rw [BitVec.toNat_ofNat, Nat.mod_eq_of_lt fits]

theorem whole?_of_le (large : 2 ^ 128 ≤ ofDigits n.whole) : n.whole? = none :=
  if_neg (Nat.not_lt.2 large)

/-- Behind the guard, the whole part and the fraction together stay below the sign bit. -/
theorem magnitude_lt (digits : ∀ c ∈ n.fraction, isDigit c = true) (le : bits ≤ 127)
    (room : whole.toNat < 2 ^ (127 - bits)) :
    whole.toNat * 2 ^ bits + (fractionBits n.fraction bits).toNat < 2 ^ 127 := by
  have low := fractionBits_lt digits (Nat.le_trans le (by decide))
  calc whole.toNat * 2 ^ bits + (fractionBits n.fraction bits).toNat
      < whole.toNat * 2 ^ bits + 2 ^ bits := Nat.add_lt_add_left low _
    _ = (whole.toNat + 1) * 2 ^ bits := (Nat.succ_mul _ _).symm
    _ ≤ 2 ^ (127 - bits) * 2 ^ bits := Nat.mul_le_mul_right _ room
    _ = 2 ^ 127 := by rw [← Nat.pow_add, Nat.sub_add_cancel le]

theorem unwrapped (digits : ∀ c ∈ n.fraction, isDigit c = true) (le : bits ≤ 127) :
    n.Unwrapped bits := by
  constructor
  · intro k round front d back split
    have holds := Doubling.holds_run digits (k := k) (by omega)
    have decimal := holds.decimal
    rw [split] at decimal
    have digit := decimal d (List.mem_append_right front List.mem_cons_self)
    have bit := toNat_carry_le fun e present =>
      decimal e (List.mem_append_right front (List.mem_cons_of_mem d present))
    omega
  · intro k round
    have holds := Doubling.holds_run digits (k := k) (by omega)
    have small := holds.small
    have bit := toNat_carry_le holds.decimal
    have bound : 2 ^ (k + 1) ≤ 2 ^ 128 := Nat.pow_le_pow_right (by decide) (by omega)
    rw [Nat.pow_succ] at bound
    omega
  · intro whole found room
    exact magnitude_lt digits le (shifted_eq_zero_iff.1 room)

end Numeral

variable {t : List Char}

theorem ofText_of_not_spelled (le : bits ≤ maxFractionBits) (trimmed : Text.Trimmed text.toList t)
    (none : ¬∃ n : Numeral, n.Spells t) : ofText text bits = .error (.malformed text) := by
  have unread : Numeral.read? t = Option.none := by
    rw [Option.eq_none_iff_forall_ne_some]
    intro n read
    exact none ⟨n, Numeral.read?_eq_some_iff.1 read⟩
  unfold ofText
  rw [if_neg (Nat.not_lt.2 le), trimmed.trim_eq, unread]

/-- A text that spells a numeral is read as the numeral, truncated, if its whole part leaves room. -/
theorem ofText_of_spells (le : bits ≤ maxFractionBits) (trimmed : Text.Trimmed text.toList t)
    (spelled : n.Spells t) :
    ofText text bits =
      if 2 ^ (127 - bits) ≤ ⌊n.magnitude⌋₊ then .error .overflow
      else .ok (n.signum * ⌊n.magnitude * 2 ^ bits⌋₊) := by
  have digits := spelled.fraction_digits
  have inRange : bits ≤ 127 := Nat.le_trans le (by decide)
  unfold ofText
  rw [if_neg (Nat.not_lt.2 le), trimmed.trim_eq, Numeral.read?_eq_some_iff.2 spelled,
    Numeral.floor_magnitude digits]
  dsimp only
  rcases Nat.lt_or_ge (ofDigits n.whole) (2 ^ 128) with fits | large
  · obtain ⟨whole, parsed, value⟩ := Numeral.whole?_of_lt fits
    rw [parsed, ← value]
    dsimp only
    by_cases room : whole.toNat < 2 ^ (127 - bits)
    · have small := Numeral.magnitude_lt digits inRange room
      have joined : (whole <<< bits ||| fractionBits n.fraction bits).toNat =
          whole.toNat * 2 ^ bits + (fractionBits n.fraction bits).toNat :=
        toNat_shiftLeft_or (by omega) (fractionBits_lt digits (by omega))
      have scaled : ⌊n.magnitude * 2 ^ bits⌋₊ =
          whole.toNat * 2 ^ bits + (fractionBits n.fraction bits).toNat := by
        rw [n.floor_magnitude_mul, value, toNat_fractionBits digits (by omega)]
      rw [if_neg (not_not.2 (shifted_eq_zero_iff.2 room)), joined, if_neg (Nat.not_le.2 small),
        if_neg (Nat.not_le.2 room), scaled, Numeral.signum]
      cases n.negative <;> simp
    · have kept : whole >>> (127 - bits) ≠ 0 := fun zero => room (shifted_eq_zero_iff.1 zero)
      rw [if_pos kept, if_pos (Nat.not_lt.1 room)]
  · -- A whole part of more than 128 bits is refused before the guard.
    have bound : 2 ^ (127 - bits) ≤ 2 ^ 128 := Nat.pow_le_pow_right (by decide) (by omega)
    rw [Numeral.whole?_of_le large, if_pos (Nat.le_trans bound large)]

/-- A text is read if it spells a numeral, but for white space around it. The number is the one that it
denotes, in units of `2 ^ -bits` and truncated toward zero, whatever the number of digits, unless the whole
part does not fit beside the fraction and the sign. -/
theorem ofText_truncates (text : String) (le : bits ≤ maxFractionBits) :
    ∃ t, Text.Trimmed text.toList t ∧
      (ofText text bits = .error (.malformed text) ↔ ¬∃ n : Numeral, n.Spells t) ∧
      ∀ n : Numeral, n.Spells t →
        (ofText text bits = .error .overflow ↔ 2 ^ (127 - bits) ≤ ⌊n.magnitude⌋₊) ∧
        (¬2 ^ (127 - bits) ≤ ⌊n.magnitude⌋₊ →
          ofText text bits = .ok (n.signum * ⌊n.magnitude * 2 ^ bits⌋₊)) ∧
        n.Unwrapped bits := by
  have trimmed := Text.trimmed_trim text.toList
  refine ⟨_, trimmed, ⟨?_, ofText_of_not_spelled le trimmed⟩, fun n spelled => ⟨?_, ?_, ?_⟩⟩
  · rintro malformed ⟨n, spelled⟩
    rw [ofText_of_spells le trimmed spelled] at malformed
    split at malformed <;> cases malformed
  · rw [ofText_of_spells le trimmed spelled]
    split
    · next large => exact ⟨fun _ => large, fun _ => rfl⟩
    · next room => exact ⟨nofun, fun large => absurd large room⟩
  · intro room
    rw [ofText_of_spells le trimmed spelled, if_neg room]
  · exact Numeral.unwrapped spelled.fraction_digits (Nat.le_trans le (by decide))

/-- A negative number between white space is truncated toward zero, 128 is one too many beside 120
fractional bits, and a point needs digits before it. -/
theorem negative_number_truncates :
    1 ≤ maxFractionBits ∧ ofText " -2.99\n" 1 = .ok (-5) ∧
      120 ≤ maxFractionBits ∧ ofText "128.0" 120 = .error .overflow ∧
      ofText ".5" 120 = .error (.malformed ".5") := by
  have one : 1 ≤ maxFractionBits := by decide
  have most : 120 ≤ maxFractionBits := by decide
  obtain ⟨t, trimmed, -, read⟩ := ofText_truncates " -2.99\n" one
  obtain ⟨u, trimmedU, -, readU⟩ := ofText_truncates "128.0" most
  obtain ⟨v, trimmedV, readV, -⟩ := ofText_truncates ".5" most
  obtain rfl : Text.trim _ = t := trimmed.trim_eq
  obtain rfl : Text.trim _ = u := trimmedU.trim_eq
  obtain rfl : Text.trim _ = v := trimmedV.trim_eq
  have spelled : Numeral.Spells ⟨true, ['2'], ['9', '9']⟩ (Text.trim " -2.99\n".toList) :=
    Numeral.read?_eq_some_iff.1 (by decide)
  have spelledU : Numeral.Spells ⟨false, ['1', '2', '8'], ['0']⟩ (Text.trim "128.0".toList) :=
    Numeral.read?_eq_some_iff.1 (by decide)
  have unspelledV : ¬∃ n : Numeral, n.Spells (Text.trim ".5".toList) := by
    rintro ⟨n, spelledV⟩
    have taken := Numeral.read?_eq_some_iff.2 spelledV
    rw [show Numeral.read? (Text.trim ".5".toList) = none by decide] at taken
    cases taken
  have whole := Numeral.floor_magnitude spelled.fraction_digits
  have wholeU := Numeral.floor_magnitude spelledU.fraction_digits
  have scaled := Numeral.floor_magnitude_mul ⟨true, ['2'], ['9', '9']⟩ 1
  have truncated := (read _ spelled).2.1 (by rw [whole]; decide)
  rw [scaled] at truncated
  exact ⟨one, truncated, most, (readU _ spelledU).1.2 (by rw [wholeU]; decide), readV.2 unspelledV⟩

end InstrumentBus.FixedPoint
