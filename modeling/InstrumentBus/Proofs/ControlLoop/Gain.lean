import InstrumentBus.Proofs.FixedPoint.RoundTrip
import InstrumentBus.ControlLoop.Gain

/-!
# Texts of gains

A gain is read from the texts of those fixed-point numbers that take 64 bits, and has the bits of the number
(`Gain.ofText_eq_ok_iff`); a number that takes more is refused as such. The text of a gain denotes it exactly
and is read as the same gain again, also at both ends of the range (`Gain.ofText_of_toText`).
-/

namespace InstrumentBus.ControlLoop.Gain

open FixedPoint (Numeral)

variable {text : String} {g : Gain} {v : Int} {cause : FixedPoint.Error}

theorem fractionBits_le : fractionBits ≤ FixedPoint.maxFractionBits := by
  decide

/-! ## Reading -/

/-- The numbers that a gain can hold, in units of `2 ^ -43`. -/
def InRange (v : Int) : Prop :=
  -2 ^ 63 ≤ v ∧ v < 2 ^ 63

instance : DecidablePred InRange :=
  fun v => inferInstanceAs (Decidable (-2 ^ 63 ≤ v ∧ v < 2 ^ 63))

theorem inRange_toInt (g : Gain) : InRange g.bits.toInt :=
  ⟨g.bits.le_toInt, g.bits.toInt_lt⟩

/-- A gain is made from a number in its range without any loss. -/
theorem toInt_ofInt (fits : InRange v) : (BitVec.ofInt 64 v).toInt = v := by
  obtain ⟨least, most⟩ := fits
  rw [BitVec.toInt_ofInt]
  exact Int.bmod_eq_of_le (by omega) (by omega)

theorem ofText_of_error (refused : FixedPoint.ofText text fractionBits = .error cause) :
    ofText text = .error (.notFixed cause) := by
  rw [ofText, refused]

theorem ofText_of_inRange (read : FixedPoint.ofText text fractionBits = .ok v) (fits : InRange v) :
    ofText text = .ok ⟨BitVec.ofInt 64 v⟩ := by
  rw [ofText, read]
  exact if_pos fits

theorem ofText_of_not_inRange (read : FixedPoint.ofText text fractionBits = .ok v) (beyond : ¬InRange v) :
    ofText text = .error (.outOfRange text) := by
  rw [ofText, read]
  exact if_neg beyond

/-- A gain is read where a number in its range is read, and it is this number. -/
theorem ofText_eq_ok_iff :
    ofText text = .ok g ↔ FixedPoint.ofText text fractionBits = .ok g.bits.toInt := by
  constructor
  · intro read
    cases fixed : FixedPoint.ofText text fractionBits with
    | error cause =>
      rw [ofText_of_error fixed] at read
      cases read
    | ok v =>
      by_cases fits : InRange v
      · rw [ofText_of_inRange fixed fits] at read
        cases read
        rw [toInt_ofInt fits]
      · rw [ofText_of_not_inRange fixed fits] at read
        cases read
  · intro fixed
    rw [ofText_of_inRange fixed (inRange_toInt g), BitVec.ofInt_toInt]

/-- The bits of a gain are the number that its text denotes, truncated toward zero. -/
theorem exists_spells_of_ofText (read : ofText text = .ok g) :
    ∃ (t : List Char) (n : Numeral), Text.Trimmed text.toList t ∧ n.Spells t ∧
      g.bits.toInt = n.signum * ⌊n.magnitude * 2 ^ 43⌋₊ := by
  obtain ⟨t, n, trimmed, spelled, truncated, -⟩ :=
    FixedPoint.exists_spells_of_ofText fractionBits_le (ofText_eq_ok_iff.1 read)
  exact ⟨t, n, trimmed, spelled, truncated⟩

/-! ## Writing -/

/-- The text of a gain is read as the gain. -/
theorem ofText_of_toText (g : Gain) : ∃ text, g.toText = .ok text ∧ ofText text = .ok g := by
  obtain ⟨text, written, canonical⟩ := FixedPoint.canonical_toText g.bits.toInt fractionBits_le
  have least := g.bits.le_toInt
  have most := g.bits.toInt_lt
  have fits : g.bits.toInt.natAbs < 2 ^ 127 := by omega
  exact ⟨text, written,
    ofText_eq_ok_iff.2 (FixedPoint.ofText_of_canonical_numeralOf canonical fits fractionBits_le)⟩

end InstrumentBus.ControlLoop.Gain
