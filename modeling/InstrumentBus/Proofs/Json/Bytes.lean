import InstrumentBus.Json.Literal
import InstrumentBus.Manifest

/-!
# The bytes of written text

The printer works on characters and the reader on bytes. `utf8` is what the reader sees of characters:
one byte for each ASCII character, and bytes above the ASCII range for any other.
-/

namespace InstrumentBus.Json

/-- The bytes of characters in UTF-8. -/
def utf8 (cs : List Char) : List UInt8 :=
  cs.flatMap String.utf8EncodeChar

theorem utf8_cons (c : Char) (cs : List Char) :
    utf8 (c :: cs) = String.utf8EncodeChar c ++ utf8 cs :=
  List.flatMap_cons

@[simp]
theorem utf8_append (cs ds : List Char) : utf8 (cs ++ ds) = utf8 cs ++ utf8 ds :=
  List.flatMap_append

/-! ## ASCII -/

theorem utf8EncodeChar_ascii {c : Char} (small : c.toNat < 128) :
    String.utf8EncodeChar c = [ascii c] :=
  if_pos (Nat.le_of_lt_succ small)

theorem utf8_cons_ascii {c : Char} (small : c.toNat < 128) (cs : List Char) :
    utf8 (c :: cs) = ascii c :: utf8 cs := by
  rw [utf8_cons, utf8EncodeChar_ascii small]
  rfl

/-- Characters of one byte each. -/
theorem utf8_ascii {cs : List Char} (small : ∀ c ∈ cs, c.toNat < 128) :
    utf8 cs = cs.map ascii := by
  induction cs with
  | nil => rfl
  | cons c rest ih =>
    rw [utf8_cons_ascii (small c List.mem_cons_self), List.map_cons,
      ih fun d later => small d (List.mem_cons_of_mem _ later)]

theorem toNat_ascii {c : Char} (small : c.toNat < 128) : (ascii c).toNat = c.toNat := by
  show c.toNat % 256 = c.toNat
  exact Nat.mod_eq_of_lt (by omega)

/-- Distinct ASCII characters have distinct bytes. -/
theorem ascii_inj {c d : Char} (smallC : c.toNat < 128) (smallD : d.toNat < 128) :
    ascii c = ascii d ↔ c = d := by
  constructor
  · intro same
    have numbers := congrArg UInt8.toNat same
    rw [toNat_ascii smallC, toNat_ascii smallD] at numbers
    rw [← Char.ofNat_toNat c, numbers, Char.ofNat_toNat]
  · rintro rfl
    rfl

/-- The bytes of a character beyond ASCII lie beyond ASCII. -/
theorem le_of_mem_utf8EncodeChar {c : Char} (large : 128 ≤ c.toNat) {b : UInt8}
    (part : b ∈ String.utf8EncodeChar c) : 128 ≤ b.toNat := by
  have high : ∀ low tag : Nat, low < 256 - tag → 128 ≤ tag →
      128 ≤ (UInt8.ofNat (low + tag)).toNat := by
    intro low tag fits above
    rw [UInt8.toNat_ofNat', Nat.mod_eq_of_lt (by omega)]
    omega
  have several : ¬c.val.toNat ≤ 127 := by
    show ¬c.toNat ≤ 127
    omega
  rw [String.utf8EncodeChar, if_neg several] at part
  split at part
  · simp only [List.mem_cons, List.not_mem_nil, or_false] at part
    rcases part with rfl | rfl
    · exact high _ 192 (by omega) (by omega)
    · exact high _ 128 (by omega) (by omega)
  · split at part
    · simp only [List.mem_cons, List.not_mem_nil, or_false] at part
      rcases part with rfl | rfl | rfl
      · exact high _ 224 (by omega) (by omega)
      · exact high _ 128 (by omega) (by omega)
      · exact high _ 128 (by omega) (by omega)
    · simp only [List.mem_cons, List.not_mem_nil, or_false] at part
      rcases part with rfl | rfl | rfl | rfl
      · exact high _ 240 (by omega) (by omega)
      · exact high _ 128 (by omega) (by omega)
      · exact high _ 128 (by omega) (by omega)
      · exact high _ 128 (by omega) (by omega)

/-! ## Texts -/

/-- The bytes are those of the text. -/
theorem fromUTF8?_utf8 (cs : List Char) :
    String.fromUTF8? ⟨(utf8 cs).toArray⟩ = some (String.ofList cs) := by
  have bytes : (⟨(utf8 cs).toArray⟩ : ByteArray) = (String.ofList cs).toByteArray := by
    rw [String.toByteArray_ofList]
    exact ByteArray.ext List.data_toByteArray.symm
  rw [bytes, String.fromUTF8?, dif_pos (String.ofList cs).isValidUTF8]
  rfl

theorem toList_loop (bs : ByteArray) (i : Nat) (seen : List UInt8) :
    ByteArray.toList.loop bs i seen = seen.reverse ++ bs.data.toList.drop i := by
  fun_induction ByteArray.toList.loop bs i seen with
  | case1 i seen more ih =>
    have inside : i < bs.data.toList.length := more
    have byte : bs.get! i = bs.data.toList[i] := getElem!_pos bs.data i more
    rw [ih, List.drop_eq_getElem_cons inside, List.reverse_cons, List.append_assoc, byte]
    rfl
  | case2 i seen done =>
    rw [List.drop_eq_nil_of_le (Nat.le_of_not_lt done), List.append_nil]

theorem bytesOf_ofList (cs : List Char) : Manifest.bytesOf (String.ofList cs) = utf8 cs := by
  rw [Manifest.bytesOf, String.toUTF8_eq_toByteArray, String.toByteArray_ofList, ByteArray.toList,
    toList_loop, List.utf8Encode, List.toList_data_toByteArray]
  rfl

end InstrumentBus.Json
