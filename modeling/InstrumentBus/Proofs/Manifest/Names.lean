import InstrumentBus.Proofs.Manifest.Constants

/-!
# The names of the generated constants

A constant is named after a region and a register. Letters lose their case in the name, and any other character
but a digit becomes an underscore, which is also what joins the two names. None of this can be taken back: two
registers share a constant if their names are alike in both parts, or if the name of one region goes on, behind
an underscore, with the beginning of the other register's name (`Declared.Clash`). The reader does not look at
names, so it accepts manifests with such registers (`two_registers_share_constant`), as well as names that no
identifier may begin with.
-/

namespace InstrumentBus.Manifest

/-! ## Identifiers -/

/-- What an identifier begins with, as far as ASCII goes. -/
def isWordStart (c : Char) : Bool :=
  c.isAlpha || c == '_'

/-- What an identifier goes on with. -/
def isWordChar (c : Char) : Bool :=
  isWordStart c || c.isDigit

/-- The shape of an identifier, which keywords share. -/
structure IsWord (name : String) : Prop where
  start : ∃ c, name.toList.head? = some c ∧ isWordStart c
  chars : ∀ c ∈ name.toList, isWordChar c

/-- The keywords of C, those that only the latest standard has among them. -/
def cKeywords : List String := [
  "auto", "break", "case", "char", "const", "continue", "default", "do", "double", "else", "enum", "extern",
  "float", "for", "goto", "if", "inline", "int", "long", "register", "restrict", "return", "short", "signed",
  "sizeof", "static", "struct", "switch", "typedef", "union", "unsigned", "void", "volatile", "while",
  "_Alignas", "_Alignof", "_Atomic", "_Bool", "_Complex", "_Generic", "_Imaginary", "_Noreturn",
  "_Static_assert", "_Thread_local", "alignas", "alignof", "bool", "constexpr", "false", "nullptr",
  "static_assert", "thread_local", "true", "typeof", "typeof_unqual", "_BitInt", "_Decimal32", "_Decimal64",
  "_Decimal128"]

/-- The keywords of Rust, those that are only reserved among them. -/
def rustKeywords : List String := [
  "as", "break", "const", "continue", "crate", "else", "enum", "extern", "false", "fn", "for", "if", "impl", "in",
  "let", "loop", "match", "mod", "move", "mut", "pub", "ref", "return", "self", "Self", "static", "struct",
  "super", "trait", "true", "type", "unsafe", "use", "where", "while", "async", "await", "dyn", "abstract",
  "become", "box", "do", "final", "macro", "override", "priv", "typeof", "unsized", "virtual", "yield", "try",
  "gen"]

/-- An identifier of C. -/
structure IsCIdentifier (name : String) : Prop where
  word : IsWord name
  free : name ∉ cKeywords

/-- An identifier of Rust, which a lone underscore is not. -/
structure IsRustIdentifier (name : String) : Prop where
  word : IsWord name
  free : name ∉ rustKeywords
  named : name ≠ "_"

/-- The name begins with a digit. -/
def LeadsWithDigit (name : String) : Prop :=
  ∃ c, name.toList.head? = some c ∧ c.isDigit

instance (name : String) : Decidable (LeadsWithDigit name) :=
  decidable_of_iff (name.toList.head?.any Char.isDigit) (Option.any_eq_true ..)

theorem keyword_has_lower : ∀ word ∈ cKeywords ++ rustKeywords, word.toList.any Char.isLower := by
  decide +kernel

/-! ## Characters of a constant -/

/-- The characters of a name as they stand in a constant. -/
def folded (name : String) : List Char :=
  name.toList.map constantChar

theorem constantChar_ascii : ∀ n < 128, isWordChar (constantChar (.ofNat n)) ∧
    (constantChar (.ofNat n)).isLower = false ∧
    (isWordStart (constantChar (.ofNat n)) ↔ (Char.ofNat n).isDigit = false) := by
  decide +kernel

theorem constantChar_foreign {c : Char} (foreign : 128 ≤ c.toNat) :
    constantChar c = '_' ∧ c.isDigit = false := by
  have beyond (limit : Char) (ascii : limit.toNat < 128) : ¬c ≤ limit := by
    rw [Char.le_def, UInt32.le_iff_toNat_le]
    exact fun below => absurd (below.trans_lt ascii) (by simpa using foreign)
  have noDigit : ¬c.val ≤ '9'.val := beyond '9' (by decide)
  constructor
  · simp [constantChar, beyond]
  · rw [Char.isDigit, decide_eq_false noDigit, Bool.and_false]

/-- What a character becomes is fit for a word, is no lower case letter, and may begin a word unless the
character is a digit. -/
theorem constantChar_spec (c : Char) : isWordChar (constantChar c) ∧ (constantChar c).isLower = false ∧
    (isWordStart (constantChar c) ↔ c.isDigit = false) := by
  by_cases ascii : c.toNat < 128
  · simpa using constantChar_ascii c.toNat ascii
  · rcases constantChar_foreign (not_lt.1 ascii) with ⟨replaced, noDigit⟩
    rw [replaced, noDigit]
    decide

theorem toList_constantName (region register : String) :
    (constantName region register).toList = folded region ++ '_' :: folded register := by
  have joint : constantChar '_' = '_' := by decide
  rw [constantName, String.toList_ofList, List.map_append, List.map_cons, joint]
  rfl

theorem of_mem_constantName {region register : String} {c : Char}
    (present : c ∈ (constantName region register).toList) : isWordChar c ∧ c.isLower = false := by
  rw [constantName, String.toList_ofList] at present
  rcases List.mem_map.1 present with ⟨source, -, rfl⟩
  rcases constantChar_spec source with ⟨fit, upper, -⟩
  exact ⟨fit, upper⟩

theorem isWord_constantName_iff {region register : String} :
    IsWord (constantName region register) ↔ ¬LeadsWithDigit region := by
  have start : (∃ c, (constantName region register).toList.head? = some c ∧ isWordStart c) ↔
      ¬LeadsWithDigit region := by
    rw [toList_constantName, LeadsWithDigit, folded]
    cases region.toList with
    | nil => simp [isWordStart]
    | cons c cs => simp [constantChar_spec]
  constructor
  · intro word
    exact start.1 word.start
  · intro fit
    exact ⟨start.2 fit, fun c present => (of_mem_constantName present).1⟩

theorem constantName_not_keyword (region register : String) :
    constantName region register ∉ cKeywords ++ rustKeywords := by
  intro keyword
  -- Every keyword has a lower case letter, and a constant has none.
  rcases List.any_eq_true.1 (keyword_has_lower _ keyword) with ⟨c, present, lower⟩
  simp [(of_mem_constantName present).2] at lower

/-! ## Names that are cut at an underscore -/

/-- Two lists with one element in the middle of each are one list just if they are cut at one place, or if one
goes on, before its cut, with what the other has behind its own. -/
theorem append_cons_eq_append_cons_iff {α : Type} {c : α} {as bs xs ys : List α} :
    as ++ c :: bs = xs ++ c :: ys ↔
      (as = xs ∧ bs = ys) ∨ (∃ mid, xs = as ++ c :: mid ∧ bs = mid ++ c :: ys) ∨
        ∃ mid, as = xs ++ c :: mid ∧ ys = mid ++ c :: bs := by
  rw [List.append_eq_append_iff]
  simp only [List.cons_eq_append_iff]
  constructor
  -- One list begins with the other up to its cut: what it has beyond is empty, or begins with the separator.
  · rintro (⟨ms, rfl, ⟨rfl, same⟩ | ⟨mid, rfl, rest⟩⟩ | ⟨ms, rfl, ⟨rfl, same⟩ | ⟨mid, rfl, rest⟩⟩)
    · simp_all
    · exact .inr (.inl ⟨mid, rfl, rest⟩)
    · simp_all
    · exact .inr (.inr ⟨mid, rfl, rest⟩)
  · rintro (⟨rfl, rfl⟩ | ⟨mid, rfl, rfl⟩ | ⟨mid, rfl, rfl⟩) <;> simp

/-- A name with a single underscore is cut nowhere else. -/
theorem constantName_eq_iff {region register name : String} {as bs : List Char}
    (cut : name.toList = as ++ '_' :: bs) (before : '_' ∉ as) (behind : '_' ∉ bs) :
    constantName region register = name ↔ folded region = as ∧ folded register = bs := by
  rw [← String.toList_inj, toList_constantName, cut, append_cons_eq_append_cons_iff]
  constructor
  · rintro (same | ⟨mid, rfl, -⟩ | ⟨mid, -, rfl⟩)
    · exact same
    · simp at before
    · simp at behind
  · exact .inl

theorem constantName_eq_underscore_iff {region register : String} :
    constantName region register = "_" ↔ region = "" ∧ register = "" := by
  have cut : "_".toList = [] ++ '_' :: [] := rfl
  rw [constantName_eq_iff cut (by simp) (by simp)]
  simp [folded]

namespace Declared

/-- The name of the second region goes on, behind an underscore, with the beginning of the first register's
name, and what is left of that is the name of the second register. -/
def Shifts (d e : Declared) : Prop :=
  ∃ mid, folded e.name = folded d.name ++ '_' :: mid ∧ folded d.register = mid ++ '_' :: folded e.register

/-- The names of two registers make one constant: they are alike, or cut at different underscores. -/
inductive Clash (d e : Declared) : Prop
  | alike (region : folded d.name = folded e.name) (register : folded d.register = folded e.register)
  | early (shift : d.Shifts e)
  | late (shift : e.Shifts d)

/-- Two registers share a constant just if they clash. -/
theorem constantName_eq_iff_clash {d e : Declared} : d.constant.1 = e.constant.1 ↔ d.Clash e := by
  rw [constant, constant, ← String.toList_inj, toList_constantName, toList_constantName,
    append_cons_eq_append_cons_iff]
  constructor
  · rintro (⟨region, register⟩ | shift | shift)
    · exact .alike region register
    · exact .early shift
    · exact .late shift
  · intro clash
    cases clash with
    | alike region register => exact .inl ⟨region, register⟩
    | early shift => exact .inr (.inl shift)
    | late shift => exact .inr (.inr shift)

theorem Before.ne {d e : Declared} (before : d.Before e) : d ≠ e := by
  rintro rfl
  rcases before with less | ⟨-, less⟩
  · exact String.lt_irrefl _ less
  · exact String.lt_irrefl _ less

end Declared

/-! ## Constants of a manifest -/

variable {m : Manifest} {d : Declared}

theorem nodup_declared (m : Manifest) : m.declared.Nodup :=
  m.declared_sorted.imp Declared.Before.ne

theorem nodup_constants_iff (listed : m.constants = m.declared.map Declared.constant) :
    (m.constants.map Prod.fst).Nodup ↔ ∀ d ∈ m.declared, ∀ e ∈ m.declared, d.Clash e → d = e := by
  rw [listed, List.map_map, List.nodup_map_iff_inj_on m.nodup_declared]
  simp only [Function.comp_apply, Declared.constantName_eq_iff_clash]

/-- No constant of a register's name holds another address just if no register with another address clashes. -/
theorem own_address_iff (listed : m.constants = m.declared.map Declared.constant) :
    (∀ addr, (d.constant.1, addr) ∈ m.constants → addr = d.address) ↔
      ∀ e ∈ m.declared, d.Clash e → e.address = d.address := by
  rw [listed]
  constructor
  · intro own e present clash
    apply own
    rw [Declared.constantName_eq_iff_clash.2 clash]
    exact List.mem_map_of_mem present
  · intro agree addr present
    rcases List.mem_map.1 present with ⟨e, here, same⟩
    obtain ⟨sameName, rfl⟩ := Prod.ext_iff.1 same
    exact agree e here (Declared.constantName_eq_iff_clash.1 sameName.symm)

theorem digest_name_mem_iff (listed : m.constants = m.declared.map Declared.constant) :
    "MANIFEST_MD5" ∈ m.constants.map Prod.fst ↔
      ∃ d ∈ m.declared, folded d.name = "MANIFEST".toList ∧ folded d.register = "MD5".toList := by
  have cut : "MANIFEST_MD5".toList = "MANIFEST".toList ++ '_' :: "MD5".toList := rfl
  have same (d : Declared) : d.constant.1 = "MANIFEST_MD5" ↔
      folded d.name = "MANIFEST".toList ∧ folded d.register = "MD5".toList :=
    constantName_eq_iff cut (by decide) (by decide)
  rw [listed, List.map_map, List.mem_map]
  simp only [Function.comp_apply, same]

theorem isCIdentifier_iff : IsCIdentifier d.constant.1 ↔ ¬LeadsWithDigit d.name := by
  constructor
  · intro identifier
    exact isWord_constantName_iff.1 identifier.word
  · intro fit
    exact ⟨isWord_constantName_iff.2 fit, fun keyword =>
      constantName_not_keyword _ _ (List.mem_append_left _ keyword)⟩

theorem isRustIdentifier_iff :
    IsRustIdentifier d.constant.1 ↔ ¬LeadsWithDigit d.name ∧ ¬(d.name = "" ∧ d.register = "") := by
  constructor
  · intro identifier
    exact ⟨isWord_constantName_iff.1 identifier.word, fun unnamed =>
      identifier.named (constantName_eq_underscore_iff.2 unnamed)⟩
  · rintro ⟨fit, named⟩
    exact ⟨isWord_constantName_iff.2 fit, fun keyword =>
      constantName_not_keyword _ _ (List.mem_append_right _ keyword), fun unnamed =>
      named (constantName_eq_underscore_iff.1 unnamed)⟩

/-- In an accepted manifest two registers share a constant just if they clash, so the constants are distinct
just if no two do, and a register has its own address in all constants of its name just if those it clashes with
have it too. One is the constant of the digest just if it is named so, and each is an identifier of C and of
Rust just if its region does not begin with a digit and, in Rust, one of its two names is not empty. -/
theorem accepted_constants_apart_iff {bytes : List UInt8} (read : ofBytes bytes = .ok m) :
    (∀ d ∈ m.declared, ∀ e ∈ m.declared, d.constant.1 = e.constant.1 ↔ d.Clash e) ∧
    ((m.constants.map Prod.fst).Nodup ↔ ∀ d ∈ m.declared, ∀ e ∈ m.declared, d.Clash e → d = e) ∧
    (∀ d ∈ m.declared, (∀ addr, (d.constant.1, addr) ∈ m.constants → addr = d.address) ↔
      ∀ e ∈ m.declared, d.Clash e → e.address = d.address) ∧
    ("MANIFEST_MD5" ∈ m.constants.map Prod.fst ↔
      ∃ d ∈ m.declared, folded d.name = "MANIFEST".toList ∧ folded d.register = "MD5".toList) ∧
    (∀ d ∈ m.declared, IsCIdentifier d.constant.1 ↔ ¬LeadsWithDigit d.name) ∧
    ∀ d ∈ m.declared, IsRustIdentifier d.constant.1 ↔
      ¬LeadsWithDigit d.name ∧ ¬(d.name = "" ∧ d.register = "") := by
  rcases ofBytes_eq_ok_iff.1 read with ⟨text, -, -, lawful, -⟩
  have listed := constants_eq lawful
  exact ⟨fun d _ e _ => Declared.constantName_eq_iff_clash, nodup_constants_iff listed,
    fun d _ => own_address_iff listed, digest_name_mem_iff listed, fun d _ => isCIdentifier_iff,
    fun d _ => isRustIdentifier_iff⟩

/-- A converter beside its interface, the registers of both apart. -/
theorem converter_beside_interface_is_apart :
    ∃ m,
      ofBytes (bytesOf (ofRegions (NameMap.ofList [
        ("dac0", { origin := 0x2000, size := 8, registers := some (NameMap.ofList [
          ("arm", { offset := 0, width := 1, access := .readWrite }),
          ("from-slave", { offset := 4, width := 24, access := .readOnly })]) }),
        ("dac0_pi", { origin := 0x2200, size := 4, registers := some (NameMap.ofList [
          ("master_select", { offset := 0, width := 2, access := .readWrite })]) })])).text) = .ok m ∧
      m.constants = [("DAC0_ARM", 0x2000), ("DAC0_FROM_SLAVE", 0x2004), ("DAC0_PI_MASTER_SELECT", 0x2200)] ∧
      (∀ d ∈ m.declared, ∀ e ∈ m.declared, d.Clash e → d = e) ∧
      ∀ d ∈ m.declared, IsRustIdentifier d.constant.1 := by
  let regions : Regions := NameMap.ofList [
    ("dac0", { origin := 0x2000, size := 8, registers := some (NameMap.ofList [
      ("arm", { offset := 0, width := 1, access := .readWrite }),
      ("from-slave", { offset := 4, width := 24, access := .readOnly })]) }),
    ("dac0_pi", { origin := 0x2200, size := 4, registers := some (NameMap.ofList [
      ("master_select", { offset := 0, width := 2, access := .readWrite })]) })]
  have lawful : regions.Lawful := Regions.lawful_iff.1 rfl
  have read := ofBytes_text lawful
  have distinct : ((ofRegions regions).constants.map Prod.fst).Nodup := by decide +kernel
  have fit : ∀ d ∈ (ofRegions regions).declared,
      ¬LeadsWithDigit d.name ∧ ¬(d.name = "" ∧ d.register = "") := by decide +kernel
  rcases accepted_constants_apart_iff read with ⟨-, apart, -, -, -, identifiers⟩
  exact ⟨ofRegions regions, read, by decide +kernel, apart.1 distinct,
    fun d present => (identifiers d present).2 (fit d present)⟩

/-- A register of a converter and one of its interface share a constant, which has both addresses. -/
theorem two_registers_share_constant :
    ∃ m,
      ofBytes (bytesOf (ofRegions (NameMap.ofList [
        ("dac0", { origin := 0x2000, size := 4, registers := some (NameMap.ofList [
          ("pi_master_select", { offset := 0, width := 8, access := .readOnly })]) }),
        ("dac0_pi", { origin := 0x2200, size := 4, registers := some (NameMap.ofList [
          ("master_select", { offset := 0, width := 2, access := .readWrite })]) })])).text) = .ok m ∧
      m.register? "dac0" "pi_master_select" = some (0x2000, { offset := 0, width := 8, access := .readOnly }) ∧
      m.register? "dac0_pi" "master_select" = some (0x2200, { offset := 0, width := 2, access := .readWrite }) ∧
      m.constants = [("DAC0_PI_MASTER_SELECT", 0x2000), ("DAC0_PI_MASTER_SELECT", 0x2200)] := by
  let regions : Regions := NameMap.ofList [
    ("dac0", { origin := 0x2000, size := 4, registers := some (NameMap.ofList [
      ("pi_master_select", { offset := 0, width := 8, access := .readOnly })]) }),
    ("dac0_pi", { origin := 0x2200, size := 4, registers := some (NameMap.ofList [
      ("master_select", { offset := 0, width := 2, access := .readWrite })]) })]
  have lawful : regions.Lawful := Regions.lawful_iff.1 rfl
  exact ⟨ofRegions regions, ofBytes_text lawful, by decide +kernel, by decide +kernel, by decide +kernel⟩

end InstrumentBus.Manifest
