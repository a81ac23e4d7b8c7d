import Mathlib.Algebra.Order.Floor.Semifield
import Mathlib.Data.Rat.Floor
import Mathlib.Tactic.FieldSimp
import InstrumentBus.Proofs.FixedPoint.Doubling
import InstrumentBus.Proofs.Text.Blank

/-!
# The grammar of numerals and what they denote

The reader of numerals takes just the texts of the grammar `Numeral.Spells`, each of them as the numeral
that it spells (`Numeral.read?_eq_some_iff`). A numeral denotes a rational number, whose magnitude scaled
and rounded down is a quotient of natural numbers (`Numeral.floor_magnitude_mul`).
-/

namespace InstrumentBus.FixedPoint

/-! ## Grammar -/

/-- One or more ASCII digits. -/
structure IsDigits (ds : List Char) : Prop where
  nonempty : ds ≠ []
  digits : ∀ c ∈ ds, isDigit c = true

/-- The texts of a sign; there need not be any. -/
inductive SpellsSign : Bool → List Char → Prop where
  | none : SpellsSign false []
  | plus : SpellsSign false ['+']
  | minus : SpellsSign true ['-']

/-- The texts of the digits of a fraction: a point and the digits, or nothing. -/
inductive SpellsFraction : List Char → List Char → Prop where
  | none : SpellsFraction [] []
  | point {ds : List Char} (digits : IsDigits ds) : SpellsFraction ds ('.' :: ds)

/-- The texts of a numeral: an optional sign, one or more digits, and optionally a point and one or more
digits. -/
def Numeral.Spells (n : Numeral) (text : List Char) : Prop :=
  ∃ mark point, SpellsSign n.negative mark ∧ IsDigits n.whole ∧ SpellsFraction n.fraction point ∧
    text = mark ++ n.whole ++ point

variable {text rest ds point mark : List Char} {negative : Bool}

theorem SpellsFraction.digits (spelled : SpellsFraction ds point) : ∀ c ∈ ds, isDigit c = true := by
  cases spelled with
  | none => exact fun c absent => absurd absent List.not_mem_nil
  | point digits => exact digits.digits

namespace Numeral

variable {n : Numeral}

/-- The digits at the start are read up to the first character that is none. -/
theorem digits?_eq_some_iff :
    digits? text = some (ds, rest) ↔
      IsDigits ds ∧ text = ds ++ rest ∧ ∀ c ∈ rest.head?, isDigit c = false := by
  dsimp only [digits?]
  constructor
  · intro read
    split at read
    · cases read
    · next nonempty =>
      cases read
      exact ⟨⟨nonempty, fun c taken => List.mem_takeWhile_imp taken⟩,
        List.takeWhile_append_dropWhile.symm, head?_dropWhile⟩
  · rintro ⟨⟨nonempty, digits⟩, rfl, stop⟩
    rw [takeWhile_run digits stop, dropWhile_run digits stop, if_neg nonempty]

theorem Spells.fraction_digits (spelled : n.Spells text) : ∀ c ∈ n.fraction, isDigit c = true := by
  obtain ⟨mark, point, -, -, behind, -⟩ := spelled
  exact behind.digits

theorem head?_point (spelled : SpellsFraction ds point) : ∀ c ∈ point.head?, isDigit c = false := by
  cases spelled with
  | none => exact nofun
  | point _ =>
    rintro _ ⟨⟩
    decide

/-- A sign is read if the digits follow it. -/
theorem sign_append (spelled : SpellsSign negative mark) (digits : IsDigits ds) :
    sign (mark ++ ds ++ rest) = (negative, ds ++ rest) := by
  cases spelled with
  | plus => rfl
  | minus => rfl
  | none =>
    cases ds with
    | nil => exact absurd rfl digits.nonempty
    | cons c more =>
      have digit := digits.digits c List.mem_cons_self
      rw [List.nil_append, List.cons_append]
      unfold sign
      split
      · next same =>
        cases same
        exact absurd digit (by decide)
      · next same =>
        cases same
        exact absurd digit (by decide)
      · rfl

theorem exists_sign (text : List Char) :
    ∃ mark, SpellsSign (sign text).1 mark ∧ text = mark ++ (sign text).2 := by
  unfold sign
  split
  · exact ⟨_, .minus, rfl⟩
  · exact ⟨_, .plus, rfl⟩
  · exact ⟨_, .none, rfl⟩

/-- Up to the end of the text there is a fraction, or nothing. -/
theorem pointDigits?_getD_eq_iff :
    (pointDigits? rest).getD ([], rest) = (ds, []) ↔ SpellsFraction ds rest := by
  constructor
  · intro read
    cases found : pointDigits? rest with
    | none =>
      rw [found] at read
      cases read
      exact .none
    | some pair =>
      rw [found] at read
      cases read
      unfold pointDigits? at found
      split at found
      · next behind =>
        obtain ⟨digits, split, -⟩ := digits?_eq_some_iff.1 found
        rw [List.append_nil] at split
        rw [split]
        exact .point digits
      · cases found
  · intro spelled
    cases spelled with
    | none => rfl
    | point digits =>
      have found : digits? ds = some (ds, []) :=
        digits?_eq_some_iff.2 ⟨digits, (List.append_nil ds).symm, nofun⟩
      rw [pointDigits?, found]
      rfl

theorem leading?_eq_some_iff : leading? text = some (n, []) ↔ n.Spells text := by
  dsimp only [leading?]
  rw [Option.bind_eq_bind, Option.bind_eq_some_iff]
  constructor
  · rintro ⟨⟨whole, rest⟩, read, found⟩
    obtain ⟨mark, signed, unsigned⟩ := exists_sign text
    obtain ⟨digits, split, -⟩ := digits?_eq_some_iff.1 read
    cases behind : (pointDigits? rest).getD ([], rest) with
    | mk fraction more =>
      rw [behind] at found
      cases found
      refine ⟨mark, rest, signed, digits, pointDigits?_getD_eq_iff.1 behind, ?_⟩
      rw [List.append_assoc, ← split, ← unsigned]
  · rintro ⟨mark, point, signed, digits, behind, rfl⟩
    rw [sign_append signed digits]
    refine ⟨(n.whole, point), digits?_eq_some_iff.2 ⟨digits, rfl, head?_point behind⟩, ?_⟩
    rw [pointDigits?_getD_eq_iff.2 behind]
    rfl

theorem read?_eq_some_iff : read? text = some n ↔ n.Spells text := by
  rw [← leading?_eq_some_iff]
  unfold read?
  split
  · next found =>
    rw [found]
    simp
  · next other =>
    exact ⟨nofun, fun found => absurd found (other n)⟩

/-! ## Values -/

/-- The rational number that a numeral denotes, without its sign. -/
def magnitude (n : Numeral) : ℚ :=
  ofDigits n.whole + ofDigits n.fraction / 10 ^ n.fraction.length

/-- The sign of a numeral as a factor. -/
def signum (n : Numeral) : Int :=
  if n.negative then -1 else 1

/-- Scaling and rounding down is a division of natural numbers. -/
theorem floor_magnitude_mul (n : Numeral) (bits : Nat) :
    ⌊n.magnitude * 2 ^ bits⌋₊ =
      ofDigits n.whole * 2 ^ bits + ofDigits n.fraction * 2 ^ bits / 10 ^ n.fraction.length := by
  have quotient : n.magnitude * 2 ^ bits =
      ((10 ^ n.fraction.length * (ofDigits n.whole * 2 ^ bits) + ofDigits n.fraction * 2 ^ bits : Nat) :
        ℚ) / (10 ^ n.fraction.length : Nat) := by
    rw [magnitude]
    push_cast
    field_simp
  rw [quotient, Nat.floor_div_eq_div, Nat.mul_add_div (Nat.pos_of_neZero _)]

/-- The whole part of what a numeral denotes is what its digits before the point do. -/
theorem floor_magnitude (digits : ∀ c ∈ n.fraction, isDigit c = true) :
    ⌊n.magnitude⌋₊ = ofDigits n.whole := by
  have scaled := n.floor_magnitude_mul 0
  rw [pow_zero, mul_one, Nat.pow_zero, Nat.mul_one, Nat.mul_one,
    Nat.div_eq_of_lt (ofDigits_lt digits), Nat.add_zero] at scaled
  exact scaled

end Numeral

end InstrumentBus.FixedPoint
