import InstrumentBus.Proofs.Json.Number

/-!
# What the reader does at a token

The reader looks at the first byte behind the blanks and goes on by it. Each lemma here says how it goes
on when that byte is known.
-/

namespace InstrumentBus.Json

variable {fuel : Nat} {b : UInt8} {input body rest after beyond : List UInt8} {v : Read}
  {key : Option String}

/-! ## Blanks -/

theorem skipBlanks_cons (token : isBlank b = false) : skipBlanks (b :: rest) = b :: rest :=
  List.dropWhile_cons_of_neg (by rw [token]; decide)

theorem skipBlanks_append {bs : List UInt8} (blank : ∀ b ∈ bs, isBlank b = true)
    (input : List UInt8) : skipBlanks (bs ++ input) = skipBlanks input :=
  List.dropWhile_append_of_pos blank

/-- Blanks before a value do not matter. -/
theorem value?_blanks {bs : List UInt8} (blank : ∀ b ∈ bs, isBlank b = true) (fuel : Nat)
    (input : List UInt8) : value? fuel (bs ++ input) = value? fuel input := by
  cases fuel with
  | zero => rfl
  | succ fuel => rw [value?, value?, skipBlanks_append blank]

/-! ## Scalars -/

theorem word?_append (word : String) (v : Read) (rest : List UInt8) :
    word? word v (word.toList.map ascii ++ rest) = some (v, rest) := by
  have start : (word.toList.map ascii).isPrefixOf (word.toList.map ascii ++ rest) = true :=
    List.isPrefixOf_iff_prefix.2 (List.prefix_append _ _)
  rw [word?, strip?, if_pos start, List.drop_left, Option.map_some]

/-- What begins neither a list nor an object is read as a scalar. -/
theorem value?_scalar (token : isBlank b = false) (notList : b ≠ ascii '[')
    (notObject : b ≠ ascii '\x7b') : value? (fuel + 1) (b :: rest) = scalar? (b :: rest) := by
  rw [value?, skipBlanks_cons token]
  simp only [notList, notObject, if_false]

theorem scalar?_quote (body : List UInt8) :
    scalar? (ascii '"' :: body) = (literal? body).map fun (s, rest) => (.string s, rest) := by
  rw [scalar?, if_pos rfl]

/-- A digit begins a number. -/
theorem scalar?_digit (digit : isDigit b = true) : scalar? (b :: rest) = number? (b :: rest) := by
  have other : ∀ {c : Char}, isDigit (ascii c) = false → b ≠ ascii c := by
    rintro c letter rfl
    rw [letter] at digit
    cases digit
  rw [scalar?, if_neg (other (c := '"') (by decide)), if_neg (other (c := 'n') (by decide)),
    if_neg (other (c := 't') (by decide)), if_neg (other (c := 'f') (by decide))]

/-! ## Lists -/

theorem value?_emptyList (close : skipBlanks input = ascii ']' :: rest) :
    value? (fuel + 1) (ascii '[' :: input) = some (.array [], rest) := by
  rw [value?, skipBlanks_cons (by decide)]
  simp only [close, if_true]

theorem value?_list (first : skipBlanks input = b :: rest) (notClose : b ≠ ascii ']') :
    value? (fuel + 1) (ascii '[' :: input) =
      (items? fuel input).map fun (vs, rest) => (.array vs, rest) := by
  rw [value?, skipBlanks_cons (by decide)]
  simp only [first, notClose, if_true, if_false]

theorem items?_last (item : value? fuel input = some (v, rest))
    (close : skipBlanks rest = ascii ']' :: after) :
    items? (fuel + 1) input = some ([v], after) := by
  rw [items?, item]
  simp only [close, if_true]

theorem items?_more (item : value? fuel input = some (v, rest))
    (comma : skipBlanks rest = ascii ',' :: after) :
    items? (fuel + 1) input = (items? fuel after).map fun (vs, rest) => (v :: vs, rest) := by
  rw [items?, item]
  simp only [comma, show ascii ',' ≠ ascii ']' by decide, if_true, if_false]

/-! ## Objects -/

theorem value?_emptyObject (close : skipBlanks input = ascii '\x7d' :: rest) :
    value? (fuel + 1) (ascii '\x7b' :: input) = some (.object [], rest) := by
  rw [value?, skipBlanks_cons (by decide)]
  simp only [close, show ascii '\x7b' ≠ ascii '[' by decide, if_true, if_false]

theorem value?_object (first : skipBlanks input = ascii '"' :: body) :
    value? (fuel + 1) (ascii '\x7b' :: input) =
      (members? fuel input).map fun (ms, rest) => (.object ms, rest) := by
  rw [value?, skipBlanks_cons (by decide)]
  simp only [first, show ascii '\x7b' ≠ ascii '[' by decide,
    show ascii '"' ≠ ascii '\x7d' by decide, if_true, if_false]

theorem members?_last (first : skipBlanks input = ascii '"' :: body)
    (name : literal? body = some (key, ascii ':' :: rest))
    (member : value? fuel rest = some (v, after))
    (close : skipBlanks after = ascii '\x7d' :: beyond) :
    members? (fuel + 1) input = some ([(key, v)], beyond) := by
  rw [members?, first]
  simp only [name, skipBlanks_cons (show isBlank (ascii ':') = false by decide), member, close,
    if_true]

theorem members?_more (first : skipBlanks input = ascii '"' :: body)
    (name : literal? body = some (key, ascii ':' :: rest))
    (member : value? fuel rest = some (v, after))
    (comma : skipBlanks after = ascii ',' :: beyond) :
    members? (fuel + 1) input =
      (members? fuel beyond).map fun (ms, rest) => ((key, v) :: ms, rest) := by
  rw [members?, first]
  simp only [name, skipBlanks_cons (show isBlank (ascii ':') = false by decide), member, comma,
    show ascii ',' ≠ ascii '\x7d' by decide, if_true, if_false]

end InstrumentBus.Json
