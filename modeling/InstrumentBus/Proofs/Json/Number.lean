import InstrumentBus.Json.Reader
import InstrumentBus.Proofs.Json.Bytes
import InstrumentBus.Proofs.Text.Blank
import InstrumentBus.Proofs.Text.Digits

/-!
# Numbers are read back

The digits of a natural number are read back as the number (`number?_toDigits`), provided that what
follows does not carry the number on.
-/

namespace InstrumentBus.Json

variable {rest : List UInt8} {n : Nat}

/-- Whether a number goes on with a byte. -/
def carriesOn (b : UInt8) : Bool :=
  isDigit b || b == ascii '.' || b == ascii 'e' || b == ascii 'E'

/-- A number that stands before these bytes ends there. -/
def Ends (rest : List UInt8) : Prop :=
  ∀ b ∈ rest.head?, carriesOn b = false

theorem Ends.nil : Ends [] := fun _ none => nomatch none

theorem Ends.cons {b : UInt8} (stops : carriesOn b = false) : Ends (b :: rest) := by
  intro c first
  cases first
  exact stops

/-! ## Digits -/

theorem isDigit_ascii {c : Char} (digit : c.isDigit = true) :
    c.toNat < 128 ∧ isDigit (ascii c) = true := by
  obtain ⟨low, high⟩ := Char.isDigit_iff_toNat.1 digit
  have small : c.toNat < 128 := Nat.lt_of_le_of_lt high (by decide)
  refine ⟨small, ?_⟩
  have byte := toNat_ascii small
  rw [isDigit, Bool.and_eq_true, decide_eq_true_eq, decide_eq_true_eq, UInt8.le_iff_toNat_le,
    UInt8.le_iff_toNat_le, byte]
  exact ⟨low, high⟩

theorem digit_of_mem_toDigits {c : Char} (listed : c ∈ Nat.toDigits 10 n) :
    c.toNat < 128 ∧ isDigit (ascii c) = true :=
  isDigit_ascii (Nat.isDigit_of_mem_toDigits (by decide) (by decide) listed)

theorem utf8_toDigits (n : Nat) : utf8 (Nat.toDigits 10 n) = (Nat.toDigits 10 n).map ascii :=
  utf8_ascii fun _ listed => (digit_of_mem_toDigits listed).1

theorem not_blank_of_isDigit {b : UInt8} (digit : isDigit b = true) : isBlank b = false := by
  simp only [isBlank, Bool.or_eq_false_iff, beq_eq_false_iff_ne]
  refine ⟨⟨⟨?_, ?_⟩, ?_⟩, ?_⟩ <;>
  · rintro rfl
    exact absurd digit (by decide)

theorem digits_append {ds : List UInt8} (all : ∀ b ∈ ds, isDigit b = true) (ends : Ends rest) :
    digits (ds ++ rest) = (ds, rest) := by
  have stop : ∀ b ∈ rest.head?, isDigit b = false := by
    intro b first
    have stop := ends b first
    simp only [carriesOn, Bool.or_eq_false_iff] at stop
    exact stop.1.1.1
  rw [digits, takeWhile_run all stop, dropWhile_run all stop]

/-- Digits denote the same number as characters and as bytes. -/
theorem ofDigits_ascii {cs : List Char} (small : ∀ c ∈ cs, c.toNat < 128) :
    ofDigits (cs.map ascii) = Nat.ofDigitChars 10 cs 0 := by
  unfold ofDigits Nat.ofDigitChars
  generalize 0 = start
  induction cs generalizing start with
  | nil => rfl
  | cons c more ih =>
    rw [List.map_cons, List.foldl_cons, List.foldl_cons, toNat_ascii (small c List.mem_cons_self)]
    exact ih (fun d later => small d (List.mem_cons_of_mem _ later)) _

/-! ## Numbers -/

/-- The digits of a number are a whole part. -/
theorem whole?_toDigits (n : Nat) (ends : Ends rest) :
    whole? (utf8 (Nat.toDigits 10 n) ++ rest) = some (utf8 (Nat.toDigits 10 n), rest) := by
  have all : ∀ b ∈ (Nat.toDigits 10 n).map ascii, isDigit b = true := by
    intro b digit
    obtain ⟨c, listed, rfl⟩ := List.mem_map.1 digit
    exact (digit_of_mem_toDigits listed).2
  have noZero : ¬(((Nat.toDigits 10 n).map ascii).head? = some 0x30 ∧
      1 < ((Nat.toDigits 10 n).map ascii).length) := by
    rintro ⟨zero, long⟩
    rcases Nat.eq_zero_or_pos n with rfl | positive
    · exact absurd long (by decide)
    · rw [List.head?_map, Option.map_eq_some_iff] at zero
      obtain ⟨c, first, byte⟩ := zero
      have same : c = '0' :=
        (ascii_inj (digit_of_mem_toDigits (List.mem_of_mem_head? first)).1 (by decide)).1 byte
      exact head?_toDigits_ne positive (same ▸ first)
  rw [utf8_toDigits, whole?, someDigits?, digits_append all ends]
  cases written : (Nat.toDigits 10 n).map ascii with
  | nil => exact absurd (List.map_eq_nil_iff.1 written) Nat.toDigits_ne_nil
  | cons b more =>
    rw [written] at noZero
    exact if_neg noZero

theorem fraction?_of_ends (ends : Ends rest) : fraction? rest = some ([], rest) := by
  cases rest with
  | nil => rfl
  | cons b more =>
    have stop := ends b rfl
    simp only [carriesOn, Bool.or_eq_false_iff, beq_eq_false_iff_ne] at stop
    exact if_neg stop.1.1.2

theorem exponent?_of_ends (ends : Ends rest) : exponent? rest = some ([], rest) := by
  cases rest with
  | nil => rfl
  | cons b more =>
    have stop := ends b rfl
    simp only [carriesOn, Bool.or_eq_false_iff, beq_eq_false_iff_ne] at stop
    exact if_neg fun either => either.elim stop.1.2 stop.2

/-- The first byte of a written number is a digit. -/
theorem toDigits_first (n : Nat) :
    ∃ b more, utf8 (Nat.toDigits 10 n) = b :: more ∧ isDigit b = true := by
  cases written : Nat.toDigits 10 n with
  | nil => exact absurd written Nat.toDigits_ne_nil
  | cons c more =>
    have listed : c ∈ Nat.toDigits 10 n := written ▸ List.mem_cons_self
    obtain ⟨small, digit⟩ := digit_of_mem_toDigits listed
    exact ⟨ascii c, utf8 more, utf8_cons_ascii small more, digit⟩

/-- A written number is read back. -/
theorem number?_toDigits {τ : Type} (n : Nat) (ends : Ends rest) :
    number? (utf8 (Nat.toDigits 10 n) ++ rest) = some ((.natural n : Json τ), rest) := by
  have value : ofDigits (utf8 (Nat.toDigits 10 n)) = n := by
    rw [utf8_toDigits, ofDigits_ascii fun _ listed => (digit_of_mem_toDigits listed).1,
      Nat.ofDigitChars_ten_toDigits]
  have whole := whole?_toDigits n ends
  obtain ⟨b, more, written, digit⟩ := toDigits_first n
  have unsigned : b ≠ ascii '-' := by
    rintro rfl
    exact absurd digit (by decide)
  rw [written] at value whole ⊢
  rw [List.cons_append] at whole ⊢
  unfold number?
  simp only [unsigned, if_false, whole, fraction?_of_ends ends, exponent?_of_ends ends,
    Option.bind_eq_bind, Option.bind_some, List.isEmpty_nil, Bool.and_self, if_true, value]
  rfl

end InstrumentBus.Json
