import InstrumentBus.Proofs.Manifest.RoundTrip

/-!
# The words behind the registers of a manifest

A driver takes it that every register of a manifest is a word of its own inside its region
(`WordsApart`). The manifest of a map always grants that. The reader does not see to it: it checks where a
register starts, but not that a whole word follows, and it lets two registers have one offset. An accepted
manifest has its words apart just if its regions are `Slotted`, which is what a register file of a map is.
-/

namespace InstrumentBus

/-- The window of the word at an address. -/
def Addr.word (addr : Addr) : Window :=
  { origin := addr, size := 4 }

theorem Addr.mem_word {addr : Addr} {place : Nat} :
    place ∈ addr.word.span ↔ addr.toNat ≤ place ∧ place < addr.toNat + 4 :=
  Iff.rfl

namespace Manifest

/-! ## Registers and their words -/

/-- The manifest lists the register in a region. -/
structure Lists (m : Manifest) (name : String) (r : Region) (register : String)
    (reg : Register) : Prop where
  region : m.region? name = some r
  entry : ∃ registers, r.registers = some registers ∧ (register, reg) ∈ registers.entries

/-- Every register resolves to a word of its own inside its region. -/
structure WordsApart (m : Manifest) : Prop where
  resolved : ∀ name r register reg, m.Lists name r register reg →
    ∃ addr, m.register? name register = some (addr, reg) ∧ addr.Aligned ∧
      addr.word.span ⊆ r.window.span
  apart : ∀ name register addr reg other register' addr' reg',
    m.register? name register = some (addr, reg) →
    m.register? other register' = some (addr', reg') →
    (name, register) ≠ (other, register') → Disjoint addr.word.span addr'.word.span

/-- The registers of a region have room for their words, each at an offset of its own. -/
structure Region.Slotted (r : Region) : Prop where
  roomy : ∀ registers, r.registers = some registers →
    ∀ e ∈ registers.entries, 4 ≤ r.size.toNat
  unshared : ∀ registers, r.registers = some registers →
    ∀ d ∈ registers.entries, ∀ e ∈ registers.entries, d.2.offset = e.2.offset → d.1 = e.1

instance (r : Region) : Decidable r.Slotted :=
  decidable_of_iff
    ((∀ registers ∈ r.registers, ∀ e ∈ registers.entries, 4 ≤ r.size.toNat) ∧
      ∀ registers ∈ r.registers, ∀ d ∈ registers.entries, ∀ e ∈ registers.entries,
        d.2.offset = e.2.offset → d.1 = e.1)
    ⟨fun ⟨roomy, unshared⟩ => ⟨roomy, unshared⟩, fun ⟨roomy, unshared⟩ => ⟨roomy, unshared⟩⟩

variable {m : Manifest} {name other register : String} {r s : Region} {reg : Register}
  {addr : Addr}

theorem register?_eq_some_iff :
    m.register? name register = some (addr, reg) ↔
      ∃ r, m.Lists name r register reg ∧ r.addressOf? reg = some addr := by
  simp only [register?, Option.bind_eq_bind, Option.bind_eq_some_iff]
  constructor
  · rintro ⟨r, region, registers, bank, _, entry, _, address, ⟨⟩⟩
    exact ⟨r, ⟨region, registers, bank, NameMap.find?_eq_some_iff.1 entry⟩, address⟩
  · rintro ⟨r, ⟨region, registers, bank, entry⟩, address⟩
    exact ⟨r, region, registers, bank, reg, NameMap.find?_eq_some_iff.2 entry, addr, address, rfl⟩

/-- The address of a register that fits does not wrap. -/
theorem Register.Fits.addressOf? (fits : reg.Fits r) (placed : r.window.Placed) :
    r.addressOf? reg = some (r.origin + reg.offset) ∧
      (r.origin + reg.offset).toNat = r.origin.toNat + reg.offset.toNat := by
  have limit : r.origin.toNat + r.size.toNat ≤ 2 ^ 32 := placed.limit_le
  have inside := fits.inside
  have room : r.origin.toNat + reg.offset.toNat < 2 ^ 32 := by omega
  rw [Region.addressOf?, if_pos room, BitVec.toNat_add, Nat.mod_eq_of_lt room]
  exact ⟨rfl, rfl⟩

namespace Lists

theorem mem_regions (here : m.Lists name r register reg) : (name, r) ∈ m.regions.entries :=
  NameMap.find?_eq_some_iff.1 here.region

theorem placed (lawful : m.regions.Lawful) (here : m.Lists name r register reg) :
    r.window.Placed :=
  lawful.arranged.placed (name, r.window) (List.mem_map.2 ⟨(name, r), here.mem_regions, rfl⟩)

theorem fits (lawful : m.regions.Lawful) (here : m.Lists name r register reg) : reg.Fits r := by
  obtain ⟨registers, bank, entry⟩ := here.entry
  exact lawful.furnished _ here.mem_regions registers bank _ entry

/-- A register of lawful regions resolves to its offset from the origin of its region. -/
theorem register?_iff (lawful : m.regions.Lawful) (here : m.Lists name r register reg) :
    m.register? name register = some (addr, reg) ↔ addr = r.origin + reg.offset := by
  obtain ⟨address, -⟩ := (here.fits lawful).addressOf? (here.placed lawful)
  rw [register?_eq_some_iff]
  constructor
  · rintro ⟨s, there, resolved⟩
    obtain rfl : r = s := Option.some.inj (here.region.symm.trans there.region)
    exact Option.some.inj (resolved.symm.trans address)
  · rintro rfl
    exact ⟨r, here, address⟩

end Lists

/-! ## Regions that are slotted -/

theorem Register.Fits.word_inside (fits : reg.Fits r) (placed : r.window.Placed)
    (roomy : 4 ≤ r.size.toNat) :
    (r.origin + reg.offset).Aligned ∧ (r.origin + reg.offset).word.span ⊆ r.window.span := by
  obtain ⟨-, address⟩ := fits.addressOf? placed
  obtain ⟨k, exponent⟩ : r.size.toNat.isPowerOfTwo := placed.sized
  -- A power of two that is not less than a word is a number of words, and so is the origin.
  have words : 4 ∣ r.size.toNat := by
    have two : 2 ^ 2 ≤ 2 ^ k := exponent ▸ roomy
    rw [exponent]
    exact Nat.pow_dvd_pow 2 ((Nat.pow_le_pow_iff_right (by decide)).1 two)
  have origin : 4 ∣ r.origin.toNat := Nat.dvd_trans words placed.aligned
  have aligned := fits.aligned
  have inside := fits.inside
  constructor
  · unfold Addr.Aligned
    omega
  · apply Set.Ico_subset_Ico
    · show r.origin.toNat ≤ (r.origin + reg.offset).toNat
      omega
    · show (r.origin + reg.offset).toNat + 4 ≤ r.origin.toNat + r.size.toNat
      omega

theorem Region.roomy_of_word (inside : addr.word.span ⊆ r.window.span) : 4 ≤ r.size.toNat := by
  have first := inside (Addr.mem_word.2 ⟨le_rfl, by omega⟩)
  have last := inside (Addr.mem_word.2 ⟨Nat.le_add_right _ 3, by omega⟩)
  have bounds : r.origin.toNat ≤ addr.toNat ∧
      addr.toNat + 3 < r.origin.toNat + r.size.toNat := ⟨first.1, last.2⟩
  omega

/-- Two registers of a region with different offsets have different words. -/
theorem Register.Fits.words_disjoint {reg' : Register} (fits : reg.Fits r) (fits' : reg'.Fits r)
    (placed : r.window.Placed) (differ : reg.offset ≠ reg'.offset) :
    Disjoint (r.origin + reg.offset).word.span (r.origin + reg'.offset).word.span := by
  obtain ⟨-, address⟩ := fits.addressOf? placed
  obtain ⟨-, address'⟩ := fits'.addressOf? placed
  have aligned := fits.aligned
  have aligned' := fits'.aligned
  have places : reg.offset.toNat ≠ reg'.offset.toNat := fun same => differ (BitVec.eq_of_toNat_eq same)
  apply Set.Ico_disjoint_Ico.2
  show min ((r.origin + reg.offset).toNat + 4) ((r.origin + reg'.offset).toNat + 4) ≤
    max (r.origin + reg.offset).toNat (r.origin + reg'.offset).toNat
  omega

namespace Regions.Lawful

theorem disjoint (lawful : m.regions.Lawful) (left : (name, r) ∈ m.regions.entries)
    (right : (other, s) ∈ m.regions.entries) (differ : name ≠ other) :
    Disjoint r.window.span s.window.span := by
  have inLeft := List.mem_map_of_mem (f := fun e : String × Region => (e.1, e.2.window)) left
  have inRight := List.mem_map_of_mem (f := fun e : String × Region => (e.1, e.2.window)) right
  exact lawful.arranged.disjoint inLeft inRight fun same => differ (congrArg Prod.fst same)

/-- Every register of lawful regions resolves to an address of its region. -/
theorem register?_mem (lawful : m.regions.Lawful) (here : m.Lists name r register reg) :
    ∃ addr, m.register? name register = some (addr, reg) ∧ addr.toNat ∈ r.window.span := by
  have fits := here.fits lawful
  have inside := fits.inside
  obtain ⟨-, address⟩ := fits.addressOf? (here.placed lawful)
  refine ⟨_, (here.register?_iff lawful).2 rfl, ?_⟩
  show r.origin.toNat ≤ _ ∧ _ < r.origin.toNat + r.size.toNat
  omega

theorem slotted (lawful : m.regions.Lawful) (apart : m.WordsApart) {e : String × Region}
    (present : e ∈ m.regions.entries) : e.2.Slotted := by
  have region : m.region? e.1 = some e.2 := NameMap.find?_eq_some_iff.2 present
  constructor
  · intro registers bank d listed
    obtain ⟨addr, -, -, inside⟩ := apart.resolved e.1 e.2 d.1 d.2 ⟨region, registers, bank, listed⟩
    exact Region.roomy_of_word inside
  · intro registers bank c listedC d listedD same
    by_contra differ
    have hereC : m.Lists e.1 e.2 c.1 c.2 := ⟨region, registers, bank, listedC⟩
    have hereD : m.Lists e.1 e.2 d.1 d.2 := ⟨region, registers, bank, listedD⟩
    have disjoint := apart.apart _ _ _ _ _ _ _ _ ((hereC.register?_iff lawful).2 rfl)
      ((hereD.register?_iff lawful).2 rfl) fun same => differ (congrArg Prod.snd same)
    rw [same] at disjoint
    have first := Addr.mem_word.2 ⟨le_refl (e.2.origin + d.2.offset).toNat, by omega⟩
    exact Set.disjoint_left.1 disjoint first first

theorem wordsApart (lawful : m.regions.Lawful)
    (slotted : ∀ e ∈ m.regions.entries, e.2.Slotted) : m.WordsApart := by
  have inside : ∀ {name r register reg}, m.Lists name r register reg →
      (r.origin + reg.offset).Aligned ∧ (r.origin + reg.offset).word.span ⊆ r.window.span := by
    intro name r register reg here
    obtain ⟨registers, bank, entry⟩ := here.entry
    have roomy := (slotted _ here.mem_regions).roomy registers bank _ entry
    exact (here.fits lawful).word_inside (here.placed lawful) roomy
  constructor
  · intro name r register reg here
    exact ⟨_, (here.register?_iff lawful).2 rfl, inside here⟩
  · intro name register addr reg other register' addr' reg' found found' differ
    obtain ⟨r, here, -⟩ := register?_eq_some_iff.1 found
    obtain ⟨s, there, -⟩ := register?_eq_some_iff.1 found'
    obtain rfl := (here.register?_iff lawful).1 found
    obtain rfl := (there.register?_iff lawful).1 found'
    -- Within a region the offsets keep the words apart, between two the regions themselves do.
    by_cases sameRegion : name = other
    · subst sameRegion
      obtain rfl : r = s := Option.some.inj (here.region.symm.trans there.region)
      have fits := here.fits lawful
      have fits' := there.fits lawful
      refine fits.words_disjoint fits' (here.placed lawful) fun sameOffset => differ ?_
      obtain ⟨registers, bank, entry⟩ := here.entry
      obtain ⟨registers', bank', entry'⟩ := there.entry
      obtain rfl : registers = registers' := Option.some.inj (bank.symm.trans bank')
      have sameName : register = register' :=
        (slotted _ here.mem_regions).unshared registers bank _ entry _ entry' sameOffset
      rw [sameName]
    · have apart := lawful.disjoint here.mem_regions there.mem_regions sameRegion
      exact apart.mono (inside here).2 (inside there).2

end Regions.Lawful

end Manifest

/-! ## Maps and files -/

namespace AddressMap

variable {α : Type} {m : AddressMap α} {r : Region α}

/-- A register file of a map is slotted, since each place has an offset of its own. -/
theorem Region.slotted_entry (banked : Banked m.regions) (present : r ∈ m.regions) :
    r.entry.Slotted := by
  constructor
  · intro registers bank e listed
    obtain ⟨layout, i, f, here, -⟩ := Region.holdsRegister_of_entry banked present bank listed
    have inside := here.word_inside banked
    show 4 ≤ r.size.toNat
    omega
  · intro registers bank d listedD e listedE sameOffset
    obtain ⟨layout, i, f, here, rfl⟩ := Region.holdsRegister_of_entry banked present bank listedD
    obtain ⟨other, j, g, there, rfl⟩ := Region.holdsRegister_of_entry banked present bank listedE
    obtain rfl : layout = other := Option.some.inj (here.bank.symm.trans there.bank)
    have places : 4 * i = 4 * j := by
      rw [← here.toNat_offset banked, ← there.toNat_offset banked]
      exact congrArg BitVec.toNat sameOffset
    obtain rfl : i = j := by omega
    obtain rfl : f = g := Option.some.inj (here.found.symm.trans there.found)
    rfl

/-- In the manifest of a map every register is a word of its own inside its region. -/
theorem wordsApart_manifest (arranged : Arranged m.regions) (banked : Banked m.regions) :
    m.manifest.WordsApart := by
  refine (lawful_manifest arranged banked).wordsApart fun e present => ?_
  obtain ⟨r, inMap, rfl⟩ := List.mem_map.1 ((perm_manifest_entries arranged).mem_iff.1 present)
  exact Region.slotted_entry banked inMap

end AddressMap

namespace Manifest

/-- The registers of an accepted manifest resolve to addresses of their regions. They have words of their
own inside their regions just if the regions are slotted, which those of every map are. -/
theorem accepted_words_apart_iff {bytes : List UInt8} (read : ofBytes bytes = .ok m) :
    (∀ name r register reg, m.Lists name r register reg →
      ∃ addr, m.register? name register = some (addr, reg) ∧ addr.toNat ∈ r.window.span) ∧
    (m.WordsApart ↔ ∀ e ∈ m.regions.entries, e.2.Slotted) ∧
    ∀ (α : Type) (ps : List (AddressMap.Placement α)),
      (AddressMap.Draft.ofPlacements ps).build.manifest.WordsApart := by
  obtain ⟨text, -, -, lawful, -⟩ := ofBytes_eq_ok_iff.1 read
  refine ⟨fun name r register reg here => lawful.register?_mem here, ⟨?_, lawful.wordsApart⟩, ?_⟩
  · intro apart e present
    exact lawful.slotted apart present
  · intro α ps
    exact AddressMap.wordsApart_manifest (AddressMap.Draft.arranged_build ps)
      (AddressMap.Draft.banked_build ps)

/-- A register file with a gap, and a memory too small for a word beside it. -/
theorem spaced_words_are_apart :
    ∃ regions : Regions,
      regions = NameMap.ofList [
        ("adc", { origin := 0x100, size := 16, registers := some (NameMap.ofList [
          ("raw", { offset := 0, width := 16, access := .readOnly }),
          ("gain", { offset := 12, width := 8, access := .ownedBy .coprocessor })]) }),
        ("key", { origin := 2, size := 2, registers := none })] ∧
      ofBytes (bytesOf (ofRegions regions).text) = .ok (ofRegions regions) ∧
      (ofRegions regions).WordsApart := by
  let regions : Regions := NameMap.ofList [
    ("adc", { origin := 0x100, size := 16, registers := some (NameMap.ofList [
      ("raw", { offset := 0, width := 16, access := .readOnly }),
      ("gain", { offset := 12, width := 8, access := .ownedBy .coprocessor })]) }),
    ("key", { origin := 2, size := 2, registers := none })]
  have lawful : regions.Lawful := Regions.lawful_iff.1 rfl
  have slotted : ∀ e ∈ regions.entries, e.2.Slotted := by decide +kernel
  obtain ⟨-, apart_iff, -⟩ := accepted_words_apart_iff (ofBytes_text lawful)
  exact ⟨regions, rfl, ofBytes_text lawful, apart_iff.2 slotted⟩

/-- The reader accepts a register in a region too small for a word, whose address is not aligned, and two
registers at one address. -/
theorem cramped_words_are_accepted :
    ∃ m,
      ofBytes (bytesOf (ofRegions (NameMap.ofList [
        ("adc", { origin := 2, size := 2, registers := some (NameMap.ofList [
          ("raw", { offset := 0, width := 16, access := .readOnly })]) }),
        ("dac", { origin := 0x100, size := 8, registers := some (NameMap.ofList [
          ("high", { offset := 4, width := 32, access := .readWrite }),
          ("low", { offset := 4, width := 8, access := .readWrite })]) })])).text) = .ok m ∧
      m.register? "adc" "raw" = some (2, { offset := 0, width := 16, access := .readOnly }) ∧
      ¬Addr.Aligned 2 ∧
      m.register? "dac" "high" = some (0x104, { offset := 4, width := 32, access := .readWrite }) ∧
      m.register? "dac" "low" = some (0x104, { offset := 4, width := 8, access := .readWrite }) ∧
      ¬m.WordsApart := by
  let regions : Regions := NameMap.ofList [
    ("adc", { origin := 2, size := 2, registers := some (NameMap.ofList [
      ("raw", { offset := 0, width := 16, access := .readOnly })]) }),
    ("dac", { origin := 0x100, size := 8, registers := some (NameMap.ofList [
      ("high", { offset := 4, width := 32, access := .readWrite }),
      ("low", { offset := 4, width := 8, access := .readWrite })]) })]
  have lawful : regions.Lawful := Regions.lawful_iff.1 rfl
  have cramped : ¬∀ e ∈ regions.entries, e.2.Slotted := by decide +kernel
  refine ⟨ofRegions regions, ofBytes_text lawful, by decide +kernel, by decide, by decide +kernel,
    by decide +kernel, fun apart => cramped fun e present => lawful.slotted apart present⟩

end Manifest

end InstrumentBus
