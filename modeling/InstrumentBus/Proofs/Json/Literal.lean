import InstrumentBus.Json.Printer
import InstrumentBus.Proofs.Json.Bytes

/-!
# String literals are read back

Inside a literal a character stands for itself, or as a short escape, or as the number of a control
character (`escape_cases`). The reader turns each of these into pieces that spell the bytes of the
character, so the text of a literal is the text that was written, whatever characters it has
(`literal?_quoted`).
-/

namespace InstrumentBus.Json

variable {taken : List Piece} {rest : List UInt8}

/-! ## Pieces that spell bytes -/

/-- The pieces stand for the bytes, whatever comes after them. -/
def Spells (ps : List Piece) (bs : List UInt8) : Prop :=
  ∀ later, bytes? (ps ++ later) = (bytes? later).map (bs ++ ·)

theorem Spells.nil : Spells [] [] := fun _ => Option.map_id'.symm

theorem Spells.append {ps qs : List Piece} {bs cs : List UInt8} (first : Spells ps bs)
    (second : Spells qs cs) : Spells (ps ++ qs) (bs ++ cs) := fun later => by
  rw [List.append_assoc, first, second, Option.map_map]
  congr 1
  funext ds
  exact (List.append_assoc _ _ _).symm

theorem spells_bytes (bs : List UInt8) : Spells (bs.map .byte) bs := by
  induction bs with
  | nil => exact .nil
  | cons b rest ih =>
    intro later
    rw [List.map_cons, List.cons_append, bytes?, ih later, Option.map_map]
    rfl

/-- The number of a control character is no half of a surrogate pair. -/
theorem spells_control {c : Char} (control : c.toNat < 0x20) :
    Spells [.unit c.toNat] (String.utf8EncodeChar c) := by
  intro later
  have high : isHighSurrogate c.toNat = false := by
    rw [isHighSurrogate, decide_eq_false (by omega), Bool.false_and]
  have low : isLowSurrogate c.toNat = false := by
    rw [isLowSurrogate, decide_eq_false (by omega), Bool.false_and]
  rw [List.singleton_append, bytes?.eq_def]
  simp only [high, low, Bool.false_eq_true, if_false, Char.ofNat_toNat]

/-! ## One character -/

/-- How a character stands in a literal: behind a backslash, as a number, or as itself. -/
theorem escape_cases (c : Char) :
    (∃ d, escape c = ['\\', d] ∧ d.toNat < 128 ∧ d ≠ 'u' ∧ c.toNat < 128 ∧
      shortEscape? (ascii d) = some (ascii c)) ∨
    (c.toNat < 0x20 ∧ escape c = '\\' :: 'u' :: (Hex.padded 4 c.toNat).toList) ∨
    (c ≠ '"' ∧ c ≠ '\\' ∧ 0x20 ≤ c.toNat ∧ escape c = [c]) := by
  by_cases quote : c = '"'
  · subst quote
    exact .inl ⟨'"', by decide⟩
  by_cases backslash : c = '\\'
  · subst backslash
    exact .inl ⟨'\\', by decide⟩
  by_cases backspace : c = '\x08'
  · subst backspace
    exact .inl ⟨'b', by decide⟩
  by_cases tab : c = '\t'
  · subst tab
    exact .inl ⟨'t', by decide⟩
  by_cases lineFeed : c = '\n'
  · subst lineFeed
    exact .inl ⟨'n', by decide⟩
  by_cases formFeed : c = '\x0c'
  · subst formFeed
    exact .inl ⟨'f', by decide⟩
  by_cases carriageReturn : c = '\r'
  · subst carriageReturn
    exact .inl ⟨'r', by decide⟩
  right
  rw [escape, if_neg quote, if_neg backslash, if_neg backspace, if_neg tab, if_neg lineFeed,
    if_neg formFeed, if_neg carriageReturn]
  by_cases control : c.toNat < 0x20
  · exact .inl ⟨control, if_pos control⟩
  · exact .inr ⟨quote, backslash, Nat.le_of_not_lt control, if_neg control⟩

theorem pieces?_short {e b : UInt8} (other : e ≠ ascii 'u') (short : shortEscape? e = some b) :
    pieces? taken (ascii '\\' :: e :: rest) = pieces? (.byte b :: taken) rest := by
  rw [pieces?.eq_def]
  simp only [show ascii '\\' ≠ ascii '"' by decide, if_false, if_true, other, short]

theorem pieces?_unit {h0 h1 h2 h3 : UInt8} {n : Nat} (number : codeUnit? h0 h1 h2 h3 = some n) :
    pieces? taken (ascii '\\' :: ascii 'u' :: h0 :: h1 :: h2 :: h3 :: rest) =
      pieces? (.unit n :: taken) rest := by
  rw [pieces?.eq_def]
  simp only [show ascii '\\' ≠ ascii '"' by decide, if_false, if_true, number]

/-- Bytes that are neither quote nor backslash nor control characters stand for themselves. -/
theorem pieces?_bytes {bs : List UInt8}
    (bare : ∀ b ∈ bs, b ≠ ascii '"' ∧ b ≠ ascii '\\' ∧ 0x20 ≤ b.toNat) :
    pieces? taken (bs ++ rest) = pieces? ((bs.map .byte).reverse ++ taken) rest := by
  induction bs generalizing taken with
  | nil => rfl
  | cons b more ih =>
    obtain ⟨notQuote, notBackslash, printable⟩ := bare b List.mem_cons_self
    have notControl : ¬b < 0x20 := fun control => Nat.not_lt.2 printable control
    rw [List.cons_append, pieces?.eq_def]
    simp only [notQuote, notBackslash, notControl, if_false]
    rw [ih fun c later => bare c (List.mem_cons_of_mem _ later), List.map_cons, List.reverse_cons,
      List.append_assoc]
    rfl

/-- The digits of a control character are read back as its number. -/
theorem codeUnit?_padded {n : Nat} (control : n < 0x20) :
    ∃ h0 h1 h2 h3, utf8 (Hex.padded 4 n).toList = [h0, h1, h2, h3] ∧
      codeUnit? h0 h1 h2 h3 = some n := by
  have written : ∀ n < 0x20, List.replicate (4 - (Nat.toDigits 16 n).length) '0' ++
      Nat.toDigits 16 n = ['0', '0', (n / 16).digitChar, (n % 16).digitChar] := by decide
  have read : ∀ n < 0x20, codeUnit? (ascii '0') (ascii '0') (ascii (n / 16).digitChar)
      (ascii (n % 16).digitChar) = some n := by decide
  have bytes : ∀ n < 0x20, utf8 ['0', '0', (n / 16).digitChar, (n % 16).digitChar] =
      [ascii '0', ascii '0', ascii (n / 16).digitChar, ascii (n % 16).digitChar] := by decide
  refine ⟨_, _, _, _, ?_, read n control⟩
  rw [Hex.padded, String.toList_ofList, written n control, bytes n control]

/-- A written character is read as pieces that spell it. -/
theorem pieces?_escape (c : Char) :
    ∃ ps, Spells ps (String.utf8EncodeChar c) ∧
      ∀ taken rest,
        pieces? taken (utf8 (escape c) ++ rest) = pieces? (ps.reverse ++ taken) rest := by
  rcases escape_cases c with ⟨d, written, smallD, notUnit, small, short⟩ | ⟨control, written⟩ |
    ⟨notQuote, notBackslash, printable, written⟩
  · refine ⟨[.byte (ascii c)], ?_, fun taken rest => ?_⟩
    · rw [utf8EncodeChar_ascii small]
      exact spells_bytes [ascii c]
    · have other : ascii d ≠ ascii 'u' := fun same =>
        notUnit ((ascii_inj smallD (by decide)).1 same)
      rw [written, utf8_cons_ascii (by decide), utf8_cons_ascii smallD]
      exact pieces?_short other short
  · obtain ⟨h0, h1, h2, h3, digits, number⟩ := codeUnit?_padded control
    refine ⟨[.unit c.toNat], spells_control control, fun taken rest => ?_⟩
    rw [written, utf8_cons_ascii (by decide), utf8_cons_ascii (by decide), digits]
    exact pieces?_unit number
  · refine ⟨(String.utf8EncodeChar c).map .byte, spells_bytes _, fun taken rest => ?_⟩
    rw [written, utf8_cons, show utf8 [] = [] from rfl, List.append_nil]
    apply pieces?_bytes
    intro b part
    by_cases small : c.toNat < 128
    · rw [utf8EncodeChar_ascii small, List.mem_singleton] at part
      subst part
      refine ⟨fun same => notQuote ((ascii_inj small (by decide)).1 same),
        fun same => notBackslash ((ascii_inj small (by decide)).1 same), ?_⟩
      rw [toNat_ascii small]
      exact printable
    · have large := le_of_mem_utf8EncodeChar (Nat.le_of_not_lt small) part
      refine ⟨fun same => ?_, fun same => ?_, by omega⟩
      · rw [same] at large
        exact absurd large (by decide)
      · rw [same] at large
        exact absurd large (by decide)

/-! ## Literals -/

theorem pieces?_escapes (cs : List Char) :
    ∃ ps, Spells ps (utf8 cs) ∧ ∀ taken rest,
      pieces? taken (utf8 (cs.flatMap escape) ++ ascii '"' :: rest) =
        some (taken.reverse ++ ps, rest) := by
  induction cs with
  | nil =>
    refine ⟨[], .nil, fun taken rest => ?_⟩
    show pieces? taken (ascii '"' :: rest) = _
    rw [pieces?.eq_def, List.append_nil]
    exact if_pos rfl
  | cons c more ih =>
    obtain ⟨ps, spells, first⟩ := pieces?_escape c
    obtain ⟨qs, spellsMore, later⟩ := ih
    refine ⟨ps ++ qs, utf8_cons c more ▸ spells.append spellsMore, fun taken rest => ?_⟩
    rw [List.flatMap_cons, utf8_append, List.append_assoc, first, later, List.reverse_append,
      List.reverse_reverse, List.append_assoc]

/-- The body of a written literal is read back as its text. -/
theorem literal?_escapes (s : String) (rest : List UInt8) :
    literal? (utf8 (s.toList.flatMap escape) ++ ascii '"' :: rest) = some (some s, rest) := by
  obtain ⟨ps, spells, read⟩ := pieces?_escapes s.toList
  have bytes : bytes? ps = some (utf8 s.toList) := by
    have alone := spells []
    rwa [List.append_nil, bytes?, Option.map_some, List.append_nil] at alone
  have text : text? ps = some s := by
    rw [text?, bytes, Option.bind_some, fromUTF8?_utf8, String.ofList_toList]
  rw [literal?, read, List.reverse_nil, List.nil_append, Option.map_some]
  show some (text? ps, rest) = some (some s, rest)
  rw [text]

end InstrumentBus.Json
