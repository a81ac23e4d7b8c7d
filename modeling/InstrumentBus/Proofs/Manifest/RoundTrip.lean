import InstrumentBus.Proofs.AddressMap.Registers
import InstrumentBus.Proofs.Manifest.Rules
import InstrumentBus.Proofs.Manifest.Shape

/-!
# Manifests survive their text

A manifest whose regions are lawful is read back from its own text, digest included
(`Manifest.ofBytes_text`). The manifest of a map is lawful, since the draft and the reader hold regions to
the same rules and a layout keeps its registers inside their region.
-/

namespace InstrumentBus

/-! ## Lawful manifests -/

namespace Manifest

theorem Regions.Lawful.narrow {regions : Regions} (lawful : regions.Lawful) :
    ∀ e ∈ regions.entries, e.2.Narrow := by
  intro e present registers bank f listed
  have fits := lawful.furnished e present registers bank f listed
  exact Nat.lt_of_le_of_lt fits.narrow (by decide)

/-- A lawful manifest is read back from its text. -/
theorem ofBytes_text {regions : Regions} (lawful : regions.Lawful) :
    ofBytes (bytesOf (ofRegions regions).text) = .ok (ofRegions regions) :=
  ofBytes_eq_ok_iff.2 ⟨bytesOf regions.text, textOf?_pretty regions.entries,
    regionsOf?_text lawful.narrow, lawful, rfl⟩

end Manifest

/-! ## Manifests of maps -/

namespace AddressMap

variable {α : Type} {m : AddressMap α} {r : Region α}

/-- The registers that the manifest lists for a region are those of its layout. -/
theorem Region.holdsRegister_of_entry (banked : Banked m.regions) (present : r ∈ m.regions)
    {registers : NameMap Manifest.Register} (bank : r.entry.registers = some registers)
    {e : String × Manifest.Register} (listed : e ∈ registers.entries) :
    ∃ layout i f, HoldsRegister m r layout i f ∧
      e = (f.name, { offset := Layout.offset i, width := f.width, access := f.access }) := by
  obtain ⟨layout, layoutBank, rfl⟩ := Option.map_eq_some_iff.1 bank
  obtain ⟨sound, -⟩ := banked r present layout layoutBank
  have named : (layout.namedRegisters.map Prod.fst).Nodup := by
    rw [Layout.names_namedRegisters]
    exact sound.named
  have inLayout : e ∈ layout.namedRegisters :=
    (NameMap.perm_entries_ofList named).mem_iff.1 listed
  obtain ⟨i, f, found, same⟩ := Layout.mem_namedRegisters.1 inLayout
  exact ⟨layout, i, f, ⟨present, layoutBank, found⟩, same⟩

theorem Region.furnished_entry (banked : Banked m.regions) (present : r ∈ m.regions) :
    r.entry.Furnished := by
  intro registers bank e listed
  obtain ⟨layout, i, f, here, rfl⟩ := Region.holdsRegister_of_entry banked present bank listed
  obtain ⟨sound, -⟩ := banked r present layout here.bank
  obtain ⟨wide, narrow⟩ := sound.widths f (Array.mem_of_getElem? here.found)
  have offset := here.toNat_offset banked
  have inside := here.word_inside banked
  refine ⟨⟨i, offset⟩, wide, narrow, ?_⟩
  show (Layout.offset i).toNat < r.size.toNat
  omega

/-- The manifest of a map keeps the rules that its reader checks. -/
theorem lawful_manifest (arranged : Arranged m.regions) (banked : Banked m.regions) :
    m.manifest.regions.Lawful := by
  have listed := perm_manifest_entries arranged
  constructor
  · have windows := listed.map fun e => (e.1, e.2.window)
    rw [List.map_map] at windows
    exact Window.Arranged.perm arranged windows.symm
  · intro e present
    obtain ⟨r, inMap, rfl⟩ := List.mem_map.1 (listed.mem_iff.1 present)
    exact Region.furnished_entry banked inMap

/-- The manifest of every map that a session draws, whatever the names of its regions and registers, is
read back from its text: the regions, their registers and the digest are the same. -/
theorem manifest_read_back (ps : List (Placement α)) :
    Manifest.ofBytes (Manifest.bytesOf (Draft.ofPlacements ps).build.manifest.text) =
      .ok (Draft.ofPlacements ps).build.manifest :=
  Manifest.ofBytes_text (lawful_manifest (Draft.arranged_build ps) (Draft.banked_build ps))

end AddressMap

end InstrumentBus
