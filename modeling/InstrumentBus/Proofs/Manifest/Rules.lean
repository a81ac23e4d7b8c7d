import InstrumentBus.Manifest.Reader
import InstrumentBus.Proofs.NameMap.Entries
import InstrumentBus.Proofs.Word.Window

/-!
# Which manifests are accepted

The reader checks each region by itself and against the regions behind it, before it has looked at those.
All the same it accepts just the regions that keep the rules of an address map and whose registers fit
(`Regions.lawful_iff`), so `ofBytes_eq_ok_iff` says which bytes are the bytes of a manifest.
-/

namespace InstrumentBus.Manifest

/-- The window of a region. -/
def Region.window (r : Region) : Window :=
  { origin := r.origin, size := r.size }

/-- A register that may stand in a region. -/
structure Register.Fits (reg : Register) (r : Region) : Prop where
  aligned : 4 ∣ reg.offset.toNat
  wide : 0 < reg.width
  narrow : reg.width ≤ 32
  inside : reg.offset.toNat < r.size.toNat

/-- Every register of a region may stand in it. -/
def Region.Furnished (r : Region) : Prop :=
  ∀ registers, r.registers = some registers → ∀ e ∈ registers.entries, e.2.Fits r

/-- Regions that keep the rules of an address map, with registers that may stand in them. -/
structure Regions.Lawful (regions : Regions) : Prop where
  arranged : Window.Arranged (regions.entries.map fun e => (e.1, e.2.window))
  furnished : ∀ e ∈ regions.entries, e.2.Furnished

variable {name : String} {r : Region}

/-! ## Registers -/

theorem checkRegister_eq_ok_iff (name register : String) {r : Region} {reg : Register} :
    checkRegister name r register reg = .ok () ↔ reg.Fits r := by
  unfold checkRegister
  constructor
  · intro passed
    split at passed
    · cases passed
    · next aligned =>
      split at passed
      · cases passed
      · next width =>
        split at passed
        · cases passed
        · next inside => exact ⟨by omega, by omega, by omega, by omega⟩
  · rintro ⟨aligned, wide, narrow, inside⟩
    rw [if_neg (by omega), if_neg (by omega), if_neg (by omega)]

theorem checkRegisters_eq_ok_iff {l : List (String × Register)} :
    checkRegisters name r l = .ok () ↔ ∀ e ∈ l, e.2.Fits r := by
  induction l with
  | nil => exact ⟨fun _ _ none => absurd none List.not_mem_nil, fun _ => rfl⟩
  | cons e rest ih =>
    rw [checkRegisters, List.forall_mem_cons, ← ih, ← checkRegister_eq_ok_iff name e.1]
    cases checkRegister name r e.1 e.2 with
    | ok _ => exact (and_iff_right rfl).symm
    | error _ => exact ⟨nofun, fun ⟨passed, _⟩ => nomatch passed⟩

/-! ## Regions -/

theorem Region.furnished_iff :
    checkRegisters name r ((r.registers.map NameMap.entries).getD []) = .ok () ↔ r.Furnished := by
  rw [checkRegisters_eq_ok_iff, Furnished]
  cases r.registers with
  | none => exact ⟨fun _ => nofun, fun _ _ none => absurd none List.not_mem_nil⟩
  | some registers =>
    constructor
    · rintro fits _ ⟨⟩
      exact fits
    · exact fun fits => fits registers rfl

/-- A region passes if it is placed, overlaps none behind it and its registers fit. Those behind it may
still have any size. -/
theorem checkRegion_eq_ok_iff {later : List (String × Region)} :
    checkRegion name r later = .ok () ↔
      r.window.Placed ∧ (∀ e ∈ later, e.2.overlaps r = false) ∧ r.Furnished := by
  unfold checkRegion
  split
  · next badSize =>
    exact ⟨nofun, fun ⟨placed, _⟩ => absurd (Window.placed_iff.1 placed).1 badSize⟩
  · next goodSize =>
    split
    · next skewed =>
      exact ⟨nofun, fun ⟨placed, _⟩ => absurd (Window.placed_iff.1 placed).2 skewed⟩
    · next straight =>
      have placed : r.window.Placed :=
        Window.placed_iff.2 ⟨not_not.1 goodSize, not_not.1 straight⟩
      split
      · next other s clash =>
        have present := List.mem_of_find?_eq_some clash
        have overlap := List.find?_some clash
        refine ⟨nofun, fun ⟨_, apart, _⟩ => ?_⟩
        rw [apart (other, s) present] at overlap
        cases overlap
      · next clear =>
        have apart : ∀ e ∈ later, e.2.overlaps r = false := fun e present => by
          simpa using List.find?_eq_none.1 clear e present
        rw [Region.furnished_iff]
        exact ⟨fun furnished => ⟨placed, apart, furnished⟩, fun ⟨_, _, furnished⟩ => furnished⟩

/-- Regions of permitted shape are found not to overlap if they share no place. -/
theorem Region.overlaps_eq_false_iff {r s : Region} (left : r.window.Placed)
    (right : s.window.Placed) :
    r.overlaps s = false ↔ Disjoint r.window.span s.window.span :=
  Window.disjoint_iff left right

theorem checkRegions_cons {e : String × Region} {later : List (String × Region)} :
    checkRegions (e :: later) = .ok () ↔
      checkRegion e.1 e.2 later = .ok () ∧ checkRegions later = .ok () := by
  rw [checkRegions]
  cases checkRegion e.1 e.2 later with
  | ok _ => exact (and_iff_right rfl).symm
  | error _ => exact ⟨nofun, fun ⟨passed, _⟩ => nomatch passed⟩

/-- Regions pass if all of them are placed, no two share a place and the registers of each fit. By
induction from the last region on, since those behind a region must be known to be placed before the
comparison with them says anything. -/
theorem checkRegions_eq_ok_iff {l : List (String × Region)} :
    checkRegions l = .ok () ↔
      (∀ e ∈ l, e.2.window.Placed) ∧
        l.Pairwise (fun d e => Disjoint d.2.window.span e.2.window.span) ∧
        ∀ e ∈ l, e.2.Furnished := by
  induction l with
  | nil => simp [checkRegions]
  | cons e later ih =>
    rw [checkRegions_cons, checkRegion_eq_ok_iff, ih, List.forall_mem_cons, List.forall_mem_cons,
      List.pairwise_cons]
    constructor
    · rintro ⟨⟨placed, clear, furnished⟩, placedLater, apart, furnishedLater⟩
      refine ⟨⟨placed, placedLater⟩, ⟨fun d present => ?_, apart⟩, furnished, furnishedLater⟩
      exact ((Region.overlaps_eq_false_iff (placedLater d present) placed).1
        (clear d present)).symm
    · rintro ⟨⟨placed, placedLater⟩, ⟨beside, apart⟩, furnished, furnishedLater⟩
      refine ⟨⟨placed, fun d present => ?_, furnished⟩, placedLater, apart, furnishedLater⟩
      exact (Region.overlaps_eq_false_iff (placedLater d present) placed).2
        (beside d present).symm

theorem Regions.lawful_iff {regions : Regions} :
    checkRegions regions.entries = .ok () ↔ regions.Lawful := by
  rw [checkRegions_eq_ok_iff]
  constructor
  · rintro ⟨placed, apart, furnished⟩
    refine ⟨⟨?_, List.forall_mem_map.2 placed, List.pairwise_map.2 apart⟩, furnished⟩
    rw [List.map_map]
    exact regions.nodup_names
  · rintro ⟨⟨-, placed, apart⟩, furnished⟩
    rw [List.forall_mem_map] at placed
    rw [List.pairwise_map] at apart
    exact ⟨placed, apart, furnished⟩

/-! ## Files -/

/-- The manifests that are read from bytes: the text has the shape of one, its regions are lawful, and the
digest is that of the text. -/
theorem ofBytes_eq_ok_iff {bytes : List UInt8} {m : Manifest} :
    ofBytes bytes = .ok m ↔
      ∃ text, textOf? bytes = some text ∧ regionsOf? text = some m.regions ∧ m.regions.Lawful ∧
        m.digest = Md5.digest text := by
  unfold ofBytes
  constructor
  · intro read
    split at read
    · cases read
    · next text found =>
      split at read
      · cases read
      · next regions shaped =>
        split at read
        · cases read
        · next passed =>
          cases read
          exact ⟨text, found, shaped, Regions.lawful_iff.1 passed, rfl⟩
  · rintro ⟨text, found, shaped, lawful, digest⟩
    rw [found]
    simp only [shaped, Regions.lawful_iff.2 lawful]
    rw [← digest]

end InstrumentBus.Manifest
