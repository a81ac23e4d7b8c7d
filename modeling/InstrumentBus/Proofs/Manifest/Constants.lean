import InstrumentBus.Manifest.Constants
import InstrumentBus.Proofs.Manifest.Words

/-!
# The registers behind the generated constants

Looking a register up and listing the constants both leave out a register whose address does not fit the bus.
In a manifest that the reader accepts there is none (`Register.Fits.addressOf?`): a window is a multiple of its
size away from zero, so it ends at the latest where the address space ends. So the constants are the declared
registers, one by one and in the order of their names (`constants_eq`), and so are the lines of the generated
texts.
-/

namespace InstrumentBus.Manifest

/-! ## Declared registers -/

/-- A register that a manifest declares, with its region and the names of both. -/
structure Declared where
  name : String
  region : Region
  register : String
  entry : Register

namespace Declared

/-- The address that a register has if nothing wraps. -/
def address (d : Declared) : Addr :=
  d.region.origin + d.entry.offset

/-- The constant of a register. -/
def constant (d : Declared) : String × Addr :=
  (constantName d.name d.register, d.address)

/-- The line of a register in a C header. -/
def cLine (d : Declared) : String :=
  "#define " ++ constantName d.name d.register ++ " (volatile uint32_t *)" ++ Hex.literal d.address.toNat ++ "\n"

/-- The line of a register among Rust items. -/
def rustLine (d : Declared) : String :=
  "pub const " ++ constantName d.name d.register ++ ": u32 = " ++ Hex.literal d.address.toNat ++ ";\n"

/-- The order by the name of the region and, in one region, by that of the register. -/
def Before (d e : Declared) : Prop :=
  d.name < e.name ∨ d.name = e.name ∧ d.register < e.register

end Declared

/-- The registers of one region, in the order of their names. -/
def Region.declared (name : String) (r : Region) : List Declared :=
  ((r.registers.map NameMap.entries).getD []).map fun e => ⟨name, r, e.1, e.2⟩

/-- All registers, in the order of the names of regions and registers. -/
def declared (m : Manifest) : List Declared :=
  m.regions.entries.flatMap fun e => e.2.declared e.1

variable {m : Manifest} {name : String} {r : Region} {d : Declared}

theorem Region.mem_declared_iff :
    d ∈ r.declared name ↔ d.name = name ∧ d.region = r ∧
      ∃ registers, r.registers = some registers ∧ (d.register, d.entry) ∈ registers.entries := by
  rw [Region.declared, List.mem_map]
  constructor
  · rintro ⟨e, listed, rfl⟩
    cases bank : r.registers with
    | none => simp [bank] at listed
    | some registers => exact ⟨rfl, rfl, registers, rfl, by simpa [bank] using listed⟩
  · rintro ⟨rfl, rfl, registers, bank, listed⟩
    exact ⟨_, by simpa [bank] using listed, rfl⟩

/-- The declared registers are those that the manifest lists. -/
theorem mem_declared_iff : d ∈ m.declared ↔ m.Lists d.name d.region d.register d.entry := by
  rw [declared, List.mem_flatMap]
  constructor
  · rintro ⟨e, present, listed⟩
    rcases Region.mem_declared_iff.1 listed with ⟨sameName, sameRegion, entry⟩
    refine ⟨NameMap.find?_eq_some_iff.2 ?_, sameRegion ▸ entry⟩
    rw [sameName, sameRegion]
    exact present
  · intro here
    exact ⟨_, here.mem_regions, Region.mem_declared_iff.2 ⟨rfl, rfl, here.entry⟩⟩

theorem Region.declared_sorted (name : String) (r : Region) :
    (r.declared name).Pairwise Declared.Before := by
  rw [Region.declared, List.pairwise_map]
  cases r.registers with
  | none => exact .nil
  | some registers => exact registers.sorted.imp fun before => .inr ⟨rfl, before⟩

/-- A later register has a later name, so each register is declared once. -/
theorem declared_sorted (m : Manifest) : m.declared.Pairwise Declared.Before := by
  rw [declared, List.pairwise_flatMap]
  refine ⟨fun e _ => e.2.declared_sorted e.1, m.regions.sorted.imp ?_⟩
  intro e e' before d listed d' listed'
  rcases Region.mem_declared_iff.1 listed with ⟨same, -⟩
  rcases Region.mem_declared_iff.1 listed' with ⟨same', -⟩
  exact .inl (by rwa [same, same'])

/-! ## Constants -/

/-- No register of a region is left out if the address of each of them fits. -/
theorem regionConstants_eq (fits : ∀ d ∈ r.declared name, r.addressOf? d.entry = some d.address) :
    regionConstants name r = (r.declared name).map Declared.constant := by
  rw [Region.declared] at fits ⊢
  rw [regionConstants, List.map_map]
  cases bank : r.registers with
  | none => rfl
  | some registers =>
    rw [bank] at fits
    rw [← List.filterMap_eq_map]
    apply List.filterMap_congr
    intro e listed
    have address := fits _ (List.mem_map_of_mem listed)
    simp only at address ⊢
    rw [address]
    rfl

/-- The constants of lawful regions are those of the declared registers. -/
theorem constants_eq (lawful : m.regions.Lawful) : m.constants = m.declared.map Declared.constant := by
  rw [constants, declared, List.map_flatMap]
  apply List.flatMap_congr
  intro e present
  apply regionConstants_eq
  intro d listed
  have here : m.Lists d.name d.region d.register d.entry :=
    mem_declared_iff.1 (List.mem_flatMap.2 ⟨e, present, listed⟩)
  rcases Region.mem_declared_iff.1 listed with ⟨-, sameRegion, -⟩
  rw [← sameRegion]
  exact ((here.fits lawful).addressOf? (here.placed lawful)).1

theorem cHeader_eq (listed : m.constants = m.declared.map Declared.constant) :
    m.cHeader = "#pragma once\n/* manifest md5 " ++ m.digestText ++ " */\n" ++
      String.join (m.declared.map Declared.cLine) := by
  unfold cHeader
  rw [listed, List.map_map]
  rfl

theorem rustConstants_eq (listed : m.constants = m.declared.map Declared.constant) :
    m.rustConstants = "pub const MANIFEST_MD5: &str = \"" ++ m.digestText ++ "\";\n" ++
      String.join (m.declared.map Declared.rustLine) := by
  unfold rustConstants
  rw [listed, List.map_map]
  rfl

/-- An address of one region of a lawful manifest lies in no other. -/
theorem Regions.Lawful.not_mem_other {other : String} {s : Region} {place : Nat} (lawful : m.regions.Lawful)
    (here : m.region? name = some r) (there : m.region? other = some s) (differ : other ≠ name)
    (inside : place ∈ r.window.span) : place ∉ s.window.span := by
  have disjoint := lawful.disjoint (NameMap.find?_eq_some_iff.1 there) (NameMap.find?_eq_some_iff.1 here) differ
  exact fun within => Set.disjoint_left.1 disjoint within inside

/-- In an accepted manifest every register is found, at its offset from the origin and inside its own region
alone. The constants are those of the declared registers with these addresses, each register once and in the
order of the names, and the generated texts have a line for each. -/
theorem accepted_constants_complete {bytes : List UInt8} (read : ofBytes bytes = .ok m) :
    (∀ name r register reg, m.Lists name r register reg →
      ∃ addr, m.register? name register = some (addr, reg) ∧
        addr.toNat = r.origin.toNat + reg.offset.toNat ∧ addr.toNat ∈ r.window.span ∧
        ∀ other s, m.region? other = some s → other ≠ name → addr.toNat ∉ s.window.span) ∧
    (∀ d, d ∈ m.declared ↔ m.Lists d.name d.region d.register d.entry) ∧
    m.declared.Pairwise Declared.Before ∧
    (∀ d ∈ m.declared, m.register? d.name d.register = some (d.address, d.entry)) ∧
    m.constants = m.declared.map Declared.constant ∧
    m.cHeader = "#pragma once\n/* manifest md5 " ++ m.digestText ++ " */\n" ++
      String.join (m.declared.map Declared.cLine) ∧
    m.rustConstants = "pub const MANIFEST_MD5: &str = \"" ++ m.digestText ++ "\";\n" ++
      String.join (m.declared.map Declared.rustLine) := by
  rcases ofBytes_eq_ok_iff.1 read with ⟨text, -, -, lawful, -⟩
  have listed := constants_eq lawful
  refine ⟨fun name r register reg here => ?_, fun d => mem_declared_iff, m.declared_sorted,
    fun d present => ?_, listed, cHeader_eq listed, rustConstants_eq listed⟩
  · rcases lawful.register?_mem here with ⟨addr, found, inside⟩
    obtain rfl := (here.register?_iff lawful).1 found
    refine ⟨_, found, ((here.fits lawful).addressOf? (here.placed lawful)).2, inside, ?_⟩
    intro other s there differ
    exact lawful.not_mem_other here.region there differ inside
  · exact ((mem_declared_iff.1 present).register?_iff lawful).2 rfl

/-- A register in the last word of the address space has its constant, behind one of an earlier region. -/
theorem last_word_has_constant :
    ∃ regions : Regions,
      regions = NameMap.ofList [
        ("top", { origin := 0xFFFFFF00, size := 0x100, registers := some (NameMap.ofList [
          ("data", { offset := 0xFC, width := 32, access := .readOnly })]) }),
        ("ram", { origin := 0x4000, size := 0x1000, registers := none }),
        ("adc0", { origin := 0x2100, size := 8, registers := some (NameMap.ofList [
          ("gain", { offset := 4, width := 8, access := .readWrite }),
          ("arm", { offset := 0, width := 1, access := .readWrite })]) })] ∧
      ofBytes (bytesOf (ofRegions regions).text) = .ok (ofRegions regions) ∧
      (ofRegions regions).constants =
        [("ADC0_ARM", 0x2100), ("ADC0_GAIN", 0x2104), ("TOP_DATA", 0xFFFFFFFC)] := by
  let regions : Regions := NameMap.ofList [
    ("top", { origin := 0xFFFFFF00, size := 0x100, registers := some (NameMap.ofList [
      ("data", { offset := 0xFC, width := 32, access := .readOnly })]) }),
    ("ram", { origin := 0x4000, size := 0x1000, registers := none }),
    ("adc0", { origin := 0x2100, size := 8, registers := some (NameMap.ofList [
      ("gain", { offset := 4, width := 8, access := .readWrite }),
      ("arm", { offset := 0, width := 1, access := .readWrite })]) })]
  have lawful : regions.Lawful := Regions.lawful_iff.1 rfl
  have read := ofBytes_text lawful
  rcases accepted_constants_complete read with ⟨-, -, -, -, listed, -⟩
  refine ⟨regions, rfl, read, listed.trans ?_⟩
  decide +kernel

end InstrumentBus.Manifest
