import InstrumentBus.Proofs.Json.Literal
import InstrumentBus.Proofs.Json.Steps

/-!
# Written values are read back

A value whose numbers are all written with digits alone is read back from its text, with the same texts
in it (`read?_pretty`). The induction follows the value: a container is read back if its parts are,
since a part is followed by a comma or by a line break, and fuel for the text of the container is fuel
enough for the shorter texts of the parts.
-/

namespace InstrumentBus.Json

variable {τ υ : Type} {level outer : Nat} {rest : List UInt8}

/-- The value with other texts in it. -/
def map (f : τ → υ) : Json τ → Json υ
  | .null => .null
  | .bool b => .bool b
  | .natural n => .natural n
  | .numeral text => .numeral text
  | .string s => .string (f s)
  | .array items => .array (items.map fun v => map f v)
  | .object members => .object (members.map fun m => (f m.1, map f m.2))
decreasing_by
  · have smaller := List.sizeOf_lt_of_mem ‹v ∈ items›
    rw [Json.array.sizeOf_spec]
    omega
  · have smaller := List.sizeOf_lt_of_mem ‹m ∈ members›
    cases m
    simp only [Prod.mk.sizeOf_spec, Json.object.sizeOf_spec] at smaller ⊢
    omega

/-- Every number in the value is written with digits alone. -/
inductive Plain : Json τ → Prop where
  | null : Plain .null
  | bool (b : Bool) : Plain (.bool b)
  | natural (n : Nat) : Plain (.natural n)
  | string (s : τ) : Plain (.string s)
  | array {items : List (Json τ)} (each : ∀ v ∈ items, Plain v) : Plain (.array items)
  | object {members : List (τ × Json τ)} (each : ∀ m ∈ members, Plain m.2) :
      Plain (.object members)

/-- The text of the value is read as the value, whatever follows that ends a number. -/
structure ReadBack (v : Json String) : Prop where
  /-- The text begins with a byte that is no blank and closes no list. -/
  first : ∀ level, ∃ b more, utf8 (lines level v) = b :: more ∧ isBlank b = false ∧ b ≠ ascii ']'
  /-- Twice the length of the text is fuel enough. -/
  reads : ∀ level fuel rest, Ends rest → 2 * (utf8 (lines level v)).length ≤ fuel →
    value? fuel (utf8 (lines level v) ++ rest) = some (v.map some, rest)

/-! ## Texts of containers -/

theorem utf8_newline (level : Nat) :
    utf8 (newline level) = ascii '\n' :: List.replicate (2 * level) 0x20 := by
  have small : ∀ c ∈ List.replicate (2 * level) ' ', c.toNat < 128 := by
    intro c listed
    rw [List.eq_of_mem_replicate listed]
    decide
  rw [newline, utf8_cons_ascii (by decide), utf8_ascii small, List.map_replicate]
  rfl

theorem blank_newline (level : Nat) : ∀ b ∈ utf8 (newline level), isBlank b = true := by
  intro b listed
  rw [utf8_newline, List.mem_cons] at listed
  rcases listed with rfl | space
  · decide
  · rw [List.eq_of_mem_replicate space]
    decide

theorem utf8_quoted (s : String) (rest : List UInt8) :
    utf8 (quoted s) ++ rest =
      ascii '"' :: (utf8 (s.toList.flatMap escape) ++ ascii '"' :: rest) := by
  rw [quoted, List.cons_append, utf8_cons_ascii (by decide), utf8_append, List.cons_append,
    List.append_assoc]
  rfl

/-- The bytes of an item on a line of its own. -/
def itemText (level : Nat) (v : Json String) (rest : List UInt8) : List UInt8 :=
  utf8 (newline level) ++ (utf8 (lines level v) ++ rest)

/-- The bytes of a member on a line of its own. -/
def memberText (level : Nat) (m : String × Json String) (rest : List UInt8) : List UInt8 :=
  utf8 (newline level) ++ (utf8 (quoted m.1) ++ ascii ':' :: ascii ' ' ::
    (utf8 (lines level m.2) ++ rest))

/-- The bytes at the end of a container. -/
def closing (level : Nat) (close : Char) (rest : List UInt8) : List UInt8 :=
  utf8 (newline level) ++ ascii close :: rest

theorem utf8_array (level : Nat) (v : Json String) (vs : List (Json String))
    (rest : List UInt8) :
    utf8 (lines level (.array (v :: vs))) ++ rest =
      ascii '[' :: itemText (level + 1) v
        (utf8 (itemLines (level + 1) vs) ++ closing level ']' rest) := by
  simp only [lines, itemText, closing, utf8_append, List.append_assoc, List.cons_append,
    utf8_cons_ascii (show '['.toNat < 128 by decide)]
  rfl

theorem utf8_itemLines (level : Nat) (v : Json String) (vs : List (Json String))
    (rest : List UInt8) :
    utf8 (itemLines level (v :: vs)) ++ rest =
      ascii ',' :: itemText level v (utf8 (itemLines level vs) ++ rest) := by
  simp only [itemLines, itemText, utf8_append, List.append_assoc, List.cons_append,
    utf8_cons_ascii (show ','.toNat < 128 by decide)]

theorem utf8_object (level : Nat) (m : String × Json String)
    (ms : List (String × Json String)) (rest : List UInt8) :
    utf8 (lines level (.object (m :: ms))) ++ rest =
      ascii '\x7b' :: memberText (level + 1) m
        (utf8 (memberLines (level + 1) ms) ++ closing level '\x7d' rest) := by
  simp only [lines, memberText, closing, utf8_append, List.append_assoc, List.cons_append,
    List.nil_append, utf8_cons_ascii (show '\x7b'.toNat < 128 by decide),
    utf8_cons_ascii (show ':'.toNat < 128 by decide),
    utf8_cons_ascii (show ' '.toNat < 128 by decide)]
  rfl

theorem utf8_memberLines (level : Nat) (m : String × Json String)
    (ms : List (String × Json String)) (rest : List UInt8) :
    utf8 (memberLines level (m :: ms)) ++ rest =
      ascii ',' :: memberText level m (utf8 (memberLines level ms) ++ rest) := by
  simp only [memberLines, memberText, utf8_append, List.append_assoc, List.cons_append,
    List.nil_append, utf8_cons_ascii (show ','.toNat < 128 by decide),
    utf8_cons_ascii (show ':'.toNat < 128 by decide),
    utf8_cons_ascii (show ' '.toNat < 128 by decide)]

theorem skipBlanks_closing (level : Nat) {close : Char} (token : isBlank (ascii close) = false)
    (rest : List UInt8) : skipBlanks (closing level close rest) = ascii close :: rest := by
  rw [closing, skipBlanks_append (blank_newline level), skipBlanks_cons token]

theorem skipBlanks_memberText (m : String × Json String) (rest : List UInt8) :
    skipBlanks (memberText level m rest) =
      ascii '"' :: (utf8 (m.1.toList.flatMap escape) ++ ascii '"' :: ascii ':' :: ascii ' ' ::
        (utf8 (lines level m.2) ++ rest)) := by
  rw [memberText, skipBlanks_append (blank_newline level), utf8_quoted,
    skipBlanks_cons (by decide)]

/-! ## Ends of numbers -/

theorem ends_closing (level : Nat) (close : Char) (rest : List UInt8) :
    Ends (closing level close rest) := by
  rw [closing, utf8_newline]
  exact .cons (by decide)

theorem ends_itemLines (level outer : Nat) (vs : List (Json String)) (close : Char)
    (rest : List UInt8) : Ends (utf8 (itemLines level vs) ++ closing outer close rest) := by
  cases vs with
  | nil =>
    rw [itemLines]
    exact ends_closing outer close rest
  | cons v more =>
    rw [utf8_itemLines]
    exact .cons (by decide)

theorem ends_memberLines (level outer : Nat) (ms : List (String × Json String)) (close : Char)
    (rest : List UInt8) : Ends (utf8 (memberLines level ms) ++ closing outer close rest) := by
  cases ms with
  | nil =>
    rw [memberLines]
    exact ends_closing outer close rest
  | cons m more =>
    rw [utf8_memberLines]
    exact .cons (by decide)

/-! ## Containers -/

theorem ReadBack.item {v : Json String} (back : ReadBack v) (level fuel : Nat) (ends : Ends rest)
    (enough : 2 * (utf8 (lines level v)).length ≤ fuel) :
    value? fuel (itemText level v rest) = some (v.map some, rest) := by
  rw [itemText, value?_blanks (blank_newline level)]
  exact back.reads level fuel rest ends enough

/-- The items of a list are read back if each of them is. -/
theorem items?_readBack (fuel : Nat) {v : Json String} {vs : List (Json String)}
    (each : ∀ w ∈ v :: vs, ReadBack w)
    (enough : 2 * ((utf8 (lines level v)).length + (utf8 (itemLines level vs)).length) < fuel) :
    items? fuel (itemText level v (utf8 (itemLines level vs) ++ closing outer ']' rest)) =
      some ((v :: vs).map (map some), rest) := by
  induction vs generalizing v fuel with
  | nil =>
    obtain ⟨fuel, rfl⟩ := Nat.exists_eq_succ_of_ne_zero (Nat.ne_zero_of_lt enough)
    have item := (each v List.mem_cons_self).item level fuel
      (ends_itemLines level outer [] ']' rest) (by omega)
    rw [itemLines] at item ⊢
    exact items?_last item (skipBlanks_closing outer (by decide) rest)
  | cons w more ih =>
    obtain ⟨fuel, rfl⟩ := Nat.exists_eq_succ_of_ne_zero (Nat.ne_zero_of_lt enough)
    have shorter := congrArg List.length (utf8_itemLines level w more [])
    simp only [itemText, List.length_append, List.length_cons, List.length_nil] at shorter
    have item := (each v List.mem_cons_self).item level fuel
      (ends_itemLines level outer (w :: more) ']' rest) (by omega)
    have others := ih fuel (fun u later => each u (List.mem_cons_of_mem _ later)) (by omega)
    rw [utf8_itemLines] at item ⊢
    rw [items?_more item (skipBlanks_cons (by decide)), others, Option.map_some]
    rfl

theorem ReadBack.member {v : Json String} (back : ReadBack v) (level fuel : Nat)
    (ends : Ends rest) (enough : 2 * (utf8 (lines level v)).length ≤ fuel) :
    value? fuel (ascii ' ' :: (utf8 (lines level v) ++ rest)) = some (v.map some, rest) := by
  have blank : ∀ b ∈ [ascii ' '], isBlank b = true := List.forall_mem_singleton.2 (by decide)
  rw [← List.singleton_append, value?_blanks blank]
  exact back.reads level fuel rest ends enough

/-- The members of an object are read back if the value of each of them is. -/
theorem members?_readBack (fuel : Nat) {m : String × Json String}
    {ms : List (String × Json String)} (each : ∀ n ∈ m :: ms, ReadBack n.2)
    (enough : 2 * ((utf8 (lines level m.2)).length + (utf8 (memberLines level ms)).length) < fuel) :
    members? fuel (memberText level m (utf8 (memberLines level ms) ++ closing outer '\x7d' rest)) =
      some ((m :: ms).map fun n => (some n.1, n.2.map some), rest) := by
  induction ms generalizing m fuel with
  | nil =>
    obtain ⟨fuel, rfl⟩ := Nat.exists_eq_succ_of_ne_zero (Nat.ne_zero_of_lt enough)
    have value := (each m List.mem_cons_self).member level fuel
      (ends_memberLines level outer [] '\x7d' rest) (by omega)
    rw [memberLines] at value ⊢
    exact members?_last (skipBlanks_memberText m _) (literal?_escapes m.1 _) value
      (skipBlanks_closing outer (by decide) rest)
  | cons n more ih =>
    obtain ⟨fuel, rfl⟩ := Nat.exists_eq_succ_of_ne_zero (Nat.ne_zero_of_lt enough)
    have shorter := congrArg List.length (utf8_memberLines level n more [])
    simp only [memberText, List.length_append, List.length_cons, List.length_nil] at shorter
    have value := (each m List.mem_cons_self).member level fuel
      (ends_memberLines level outer (n :: more) '\x7d' rest) (by omega)
    have others := ih fuel (fun u later => each u (List.mem_cons_of_mem _ later)) (by omega)
    rw [utf8_memberLines] at value ⊢
    rw [members?_more (skipBlanks_memberText m _) (literal?_escapes m.1 _) value
      (skipBlanks_cons (by decide)), others, Option.map_some]
    rfl

/-! ## Values -/

/-- A value without containers is read back if its text is read as a scalar. -/
theorem readBack_scalar {v : Json String} {text : List Char}
    (written : ∀ level, lines level v = text) {b : UInt8} {more : List UInt8}
    (bytes : utf8 text = b :: more) (token : isBlank b = false)
    (notContainer : b ≠ ascii '[' ∧ b ≠ ascii '\x7b' ∧ b ≠ ascii ']')
    (reads : ∀ rest, Ends rest → scalar? (b :: (more ++ rest)) = some (v.map some, rest)) :
    ReadBack v where
  first level := ⟨b, more, by rw [written, bytes], token, notContainer.2.2⟩
  reads level fuel rest ends enough := by
    rw [written, bytes, List.length_cons] at enough
    obtain ⟨fuel, rfl⟩ := Nat.exists_eq_succ_of_ne_zero (show fuel ≠ 0 by omega)
    rw [written, bytes, List.cons_append,
      value?_scalar token notContainer.1 notContainer.2.1]
    exact reads rest ends

theorem readBack_natural (n : Nat) : ReadBack (.natural n) := by
  obtain ⟨b, more, bytes, digit⟩ := toDigits_first n
  have notBlank := not_blank_of_isDigit digit
  refine readBack_scalar (fun _ => by rw [lines]) bytes notBlank ?_ fun rest ends => ?_
  · refine ⟨?_, ?_, ?_⟩ <;>
    · rintro rfl
      exact absurd digit (by decide)
  · rw [scalar?_digit digit, ← List.cons_append, ← bytes, number?_toDigits n ends, map]

theorem readBack_string (s : String) : ReadBack (.string s) := by
  have bytes := utf8_quoted s []
  rw [List.append_nil] at bytes
  refine readBack_scalar (fun _ => by rw [lines]) bytes (by decide) (by decide) fun rest _ => ?_
  rw [List.append_assoc, List.singleton_append, scalar?_quote, literal?_escapes, Option.map_some,
    map]

/-- A value that is written as a word is read back if the first letter leads to the word. -/
theorem readBack_word {v : Json String} (word : String)
    (written : ∀ level, lines level v = word.toList)
    (letters : utf8 word.toList = word.toList.map ascii) {b : UInt8} {more : List UInt8}
    (bytes : utf8 word.toList = b :: more) (token : isBlank b = false)
    (notContainer : b ≠ ascii '[' ∧ b ≠ ascii '\x7b' ∧ b ≠ ascii ']')
    (leads : ∀ rest, scalar? (b :: rest) = word? word (v.map some) (b :: rest)) : ReadBack v := by
  refine readBack_scalar written bytes token notContainer fun rest _ => ?_
  rw [leads, ← List.cons_append, ← bytes, letters, word?_append]

theorem readBack_null : ReadBack .null := by
  refine readBack_word "null" (fun _ => by rw [lines]) rfl rfl (by decide) (by decide)
    fun rest => ?_
  rw [scalar?, if_neg (by decide), if_pos (by decide), map]

theorem readBack_bool (b : Bool) : ReadBack (.bool b) := by
  cases b with
  | true =>
    refine readBack_word "true" (fun _ => by rw [lines]) rfl rfl (by decide) (by decide)
      fun rest => ?_
    rw [scalar?, if_neg (by decide), if_neg (by decide), if_pos (by decide), map]
  | false =>
    refine readBack_word "false" (fun _ => by rw [lines]) rfl rfl (by decide) (by decide)
      fun rest => ?_
    rw [scalar?, if_neg (by decide), if_neg (by decide), if_neg (by decide), if_pos (by decide), map]

theorem readBack_array {items : List (Json String)} (each : ∀ v ∈ items, ReadBack v) :
    ReadBack (.array items) := by
  cases items with
  | nil =>
    refine ⟨fun level => ⟨ascii '[', [ascii ']'], by rw [lines]; rfl, by decide, by decide⟩,
      fun level fuel rest _ enough => ?_⟩
    rw [lines] at enough ⊢
    obtain ⟨fuel, rfl⟩ := Nat.exists_eq_succ_of_ne_zero (Nat.ne_zero_of_lt enough)
    rw [map]
    exact value?_emptyList (skipBlanks_cons (by decide))
  | cons v vs =>
    refine ⟨fun level => ⟨ascii '[', _, by simpa using utf8_array level v vs [], by decide,
      by decide⟩, fun level fuel rest _ enough => ?_⟩
    have shorter := congrArg List.length (utf8_array level v vs [])
    simp only [itemText, List.length_append, List.length_cons, List.length_nil] at shorter
    obtain ⟨fuel, rfl⟩ := Nat.exists_eq_succ_of_ne_zero (show fuel ≠ 0 by omega)
    obtain ⟨b, more, bytes, token, notClose⟩ := (each v List.mem_cons_self).first (level + 1)
    have first : skipBlanks (itemText (level + 1) v
        (utf8 (itemLines (level + 1) vs) ++ closing level ']' rest)) = b :: (more ++
          (utf8 (itemLines (level + 1) vs) ++ closing level ']' rest)) := by
      rw [itemText, skipBlanks_append (blank_newline _), bytes, List.cons_append,
        skipBlanks_cons token]
    rw [utf8_array, value?_list first notClose, items?_readBack _ each (by omega), map,
      Option.map_some]

theorem readBack_object {members : List (String × Json String)}
    (each : ∀ m ∈ members, ReadBack m.2) : ReadBack (.object members) := by
  cases members with
  | nil =>
    refine ⟨fun level => ⟨ascii '\x7b', [ascii '\x7d'], by rw [lines]; rfl, by decide, by decide⟩,
      fun level fuel rest _ enough => ?_⟩
    rw [lines] at enough ⊢
    obtain ⟨fuel, rfl⟩ := Nat.exists_eq_succ_of_ne_zero (Nat.ne_zero_of_lt enough)
    rw [map]
    exact value?_emptyObject (skipBlanks_cons (by decide))
  | cons m ms =>
    refine ⟨fun level => ⟨ascii '\x7b', _, by simpa using utf8_object level m ms [], by decide,
      by decide⟩, fun level fuel rest _ enough => ?_⟩
    have shorter := congrArg List.length (utf8_object level m ms [])
    simp only [memberText, List.length_append, List.length_cons, List.length_nil] at shorter
    obtain ⟨fuel, rfl⟩ := Nat.exists_eq_succ_of_ne_zero (show fuel ≠ 0 by omega)
    rw [utf8_object, value?_object (skipBlanks_memberText m _),
      members?_readBack _ each (by omega), map, Option.map_some]

theorem Plain.readBack {v : Json String} (plain : Plain v) : ReadBack v := by
  induction plain with
  | null => exact readBack_null
  | bool b => exact readBack_bool b
  | natural n => exact readBack_natural n
  | string s => exact readBack_string s
  | array _ each => exact readBack_array each
  | object _ each => exact readBack_object each

/-- The text of a value is read as the value. -/
theorem read?_pretty {v : Json String} (plain : Plain v) :
    read? (Manifest.bytesOf (pretty v)) = some (v.map some) := by
  have read := plain.readBack.reads 0 (2 * (utf8 (lines 0 v)).length + 2) [] .nil (by omega)
  rw [List.append_nil] at read
  rw [pretty, bytesOf_ofList, read?, read]
  rfl

end InstrumentBus.Json
