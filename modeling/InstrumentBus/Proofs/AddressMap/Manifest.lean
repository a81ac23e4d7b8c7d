import InstrumentBus.Proofs.AddressMap.Decode
import InstrumentBus.Proofs.NameMap.Entries
import InstrumentBus.Proofs.RegisterFile.Layout

/-!
# The manifest of a map

The manifest of a map has an entry for every region under its name, and the entry of a register file
has one for every register, at the offset of its place.
-/

namespace InstrumentBus

/-! ## Registers -/

/-- The registers of a layout with their names, in the order of their places. -/
def Layout.namedRegisters (l : Layout) : List (String × Manifest.Register) :=
  l.fields.toList.zipIdx.map fun (f, i) =>
    (f.name, { offset := offset i, width := f.width, access := f.access })

theorem Layout.names_namedRegisters (l : Layout) :
    l.namedRegisters.map Prod.fst = l.fields.toList.map Field.name := by
  rw [namedRegisters, List.map_map]
  show l.fields.toList.zipIdx.map (Field.name ∘ Prod.fst) = l.fields.toList.map Field.name
  rw [← List.map_map, List.zipIdx_map_fst]

theorem Layout.mem_namedRegisters {l : Layout} {e : String × Manifest.Register} :
    e ∈ l.namedRegisters ↔ ∃ i f, l.fields[i]? = some f ∧
      e = (f.name, { offset := offset i, width := f.width, access := f.access }) := by
  rw [namedRegisters, List.mem_map]
  constructor
  · rintro ⟨⟨f, i⟩, listed, rfl⟩
    rw [List.mk_mem_zipIdx_iff_getElem?, Array.getElem?_toList] at listed
    exact ⟨i, f, listed, rfl⟩
  · rintro ⟨i, f, found, rfl⟩
    refine ⟨(f, i), ?_, rfl⟩
    rw [List.mk_mem_zipIdx_iff_getElem?, Array.getElem?_toList]
    exact found

/-- The manifest describes every register of a sound layout under its name. -/
theorem Layout.Sound.find?_manifestRegisters {l : Layout} (sound : l.Sound) {i : Nat} {f : Field}
    (found : l.fields[i]? = some f) :
    l.manifestRegisters.find? f.name =
      some { offset := offset i, width := f.width, access := f.access } := by
  refine NameMap.find?_ofList (l := l.namedRegisters) ?_ (mem_namedRegisters.2 ⟨i, f, found, rfl⟩)
  rw [names_namedRegisters]
  exact sound.named

namespace AddressMap

variable {α : Type} {m : AddressMap α} {r : Region α}

/-! ## Regions -/

/-- A region as the manifest describes it. -/
def Region.entry (r : Region α) : Manifest.Region :=
  { origin := r.origin, size := r.size, registers := r.registers.map Layout.manifestRegisters }

theorem manifest_regions (m : AddressMap α) :
    m.manifest.regions = NameMap.ofList (m.regions.map fun r => (r.name, r.entry)) :=
  rfl

theorem names_entries (regions : List (Region α)) :
    (regions.map fun r => (r.name, r.entry)).map Prod.fst = regions.map Region.name := by
  rw [List.map_map]
  rfl

/-- The entries of the manifest are those of the regions, in another order. -/
theorem perm_manifest_entries (arranged : Arranged m.regions) :
    m.manifest.regions.entries.Perm (m.regions.map fun r => (r.name, r.entry)) := by
  rw [manifest_regions]
  apply NameMap.perm_entries_ofList
  rw [names_entries]
  exact arranged.named

theorem manifest_region? (arranged : Arranged m.regions) (present : r ∈ m.regions) :
    m.manifest.region? r.name = some r.entry := by
  have listed : (r.name, r.entry) ∈ m.regions.map fun r => (r.name, r.entry) :=
    List.mem_map.2 ⟨r, present, rfl⟩
  exact NameMap.find?_eq_some_iff.2 ((perm_manifest_entries arranged).mem_iff.2 listed)

end AddressMap

end InstrumentBus
