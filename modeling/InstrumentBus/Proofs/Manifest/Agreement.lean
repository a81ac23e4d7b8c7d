import InstrumentBus.Proofs.Manifest.RoundTrip

/-!
# The reader and the draft keep the same rules

The rules for regions are written twice: the draft of a map checks a region against all that came before,
in the order of their arrival, and the reader of a manifest checks it against those behind it, in the order
of the names. `reader_agrees_with_draft` says that they let the same regions pass, in whatever order these
are added or written.
-/

namespace InstrumentBus

/-- Windows with their names as regions of a manifest, without registers. -/
def Manifest.plainRegions (ws : List (String × Window)) : List (String × Manifest.Region) :=
  ws.map fun w => (w.1, { origin := w.2.origin, size := w.2.size, registers := none })

/-- Windows with their names as regions of a map, without registers. -/
def AddressMap.plainRegions {α : Type} (owner : α) (ws : List (String × Window)) :
    List (AddressMap.Region α) :=
  ws.map fun w => .plain w.1 w.2.origin w.2.size owner

/-! ## Manifests -/

namespace Manifest

variable {vs ws : List (String × Window)}

theorem names_plainRegions (ws : List (String × Window)) :
    (plainRegions ws).map Prod.fst = ws.map Prod.fst := by
  rw [plainRegions, List.map_map]
  rfl

theorem windows_plainRegions (ws : List (String × Window)) :
    ((plainRegions ws).map fun e => (e.1, e.2.window)) = ws := by
  rw [plainRegions, List.map_map]
  exact List.map_id ws

/-- Regions without registers are lawful if their windows keep the rules. -/
theorem lawful_plainRegions_iff (named : (ws.map Prod.fst).Nodup) :
    Regions.Lawful (NameMap.ofList (plainRegions ws)) ↔ Window.Arranged ws := by
  have listed := NameMap.perm_entries_ofList (l := plainRegions ws)
    ((names_plainRegions ws).symm ▸ named)
  have windows := listed.map fun e => (e.1, e.2.window)
  rw [windows_plainRegions] at windows
  constructor
  · intro lawful
    exact lawful.arranged.perm windows
  · intro arranged
    refine ⟨arranged.perm windows.symm, fun e present registers bank => ?_⟩
    obtain ⟨w, -, rfl⟩ := List.mem_map.1 (listed.mem_iff.1 present)
    cases bank

theorem regionsOf?_plain (named : (ws.map Prod.fst).Nodup) (same : vs.Perm ws) :
    regionsOf? (bytesOf (Json.pretty (regionsJson (plainRegions vs)))) =
      some (NameMap.ofList (plainRegions ws)) := by
  have narrow : ∀ e ∈ plainRegions vs, e.2.Narrow := by
    intro e present registers bank
    obtain ⟨w, -, rfl⟩ := List.mem_map.1 present
    cases bank
  have samePlain : (plainRegions vs).Perm (plainRegions ws) := same.map _
  rw [regionsOf?_pretty narrow,
    NameMap.ofList_eq_of_perm ((names_plainRegions ws).symm ▸ named) samePlain]

end Manifest

/-! ## Drafts -/

namespace AddressMap

variable {α : Type}

/-- Regions without registers can be added in turn if their windows keep the rules. -/
theorem addAll_plainRegions_iff (owner : α) (ws : List (String × Window)) :
    (∃ d, Draft.empty.addAll (plainRegions owner ws) = .ok d) ↔ Window.Arranged ws := by
  have windows : ((plainRegions owner ws).map fun r => (r.name, r.window)) = ws := by
    rw [plainRegions, List.map_map]
    exact List.map_id ws
  have arranged_iff : Arranged (plainRegions owner ws) ↔ Window.Arranged ws := by
    rw [Arranged, windows]
  rw [← arranged_iff]
  constructor
  · rintro ⟨d, added⟩
    exact ((Draft.addAll_eq_ok_iff Draft.arranged_empty).1 added).1
  · intro arranged
    exact ⟨_, (Draft.addAll_eq_ok_iff Draft.arranged_empty).2 ⟨arranged, rfl⟩⟩

/-- Regions with distinct names are accepted by the reader of manifests just if each of them can be added
to a draft in turn. Neither depends on the order: not on that in which the regions are added, nor on that
in which they are written, nor on how else the text is laid out or whether it is compressed. -/
theorem reader_agrees_with_draft (owner : α) (ws : List (String × Window))
    (named : (ws.map Prod.fst).Nodup) :
    (∀ vs, vs.Perm ws →
      ((∃ m, Manifest.ofBytes (Manifest.bytesOf (Json.pretty
          (Manifest.regionsJson (Manifest.plainRegions vs)))) = .ok m) ↔
        ∃ d, Draft.empty.addAll (plainRegions owner ws) = .ok d) ∧
      ((∃ d, Draft.empty.addAll (plainRegions owner vs) = .ok d) ↔
        ∃ d, Draft.empty.addAll (plainRegions owner ws) = .ok d)) ∧
    ∀ bytes text, Manifest.textOf? bytes = some text →
      Manifest.regionsOf? text = some (NameMap.ofList (Manifest.plainRegions ws)) →
        ((∃ m, Manifest.ofBytes bytes = .ok m) ↔
          ∃ d, Draft.empty.addAll (plainRegions owner ws) = .ok d) := by
  have anyText : ∀ bytes text, Manifest.textOf? bytes = some text →
      Manifest.regionsOf? text = some (NameMap.ofList (Manifest.plainRegions ws)) →
        ((∃ m, Manifest.ofBytes bytes = .ok m) ↔
          ∃ d, Draft.empty.addAll (plainRegions owner ws) = .ok d) := by
    intro bytes text found shaped
    rw [addAll_plainRegions_iff, ← Manifest.lawful_plainRegions_iff named]
    constructor
    · rintro ⟨m, read⟩
      obtain ⟨other, sameText, sameRegions, lawful, -⟩ := Manifest.ofBytes_eq_ok_iff.1 read
      rw [found, Option.some.injEq] at sameText
      rw [← sameText, shaped, Option.some.injEq] at sameRegions
      exact sameRegions ▸ lawful
    · intro lawful
      exact ⟨⟨_, _⟩, Manifest.ofBytes_eq_ok_iff.2 ⟨text, found, shaped, lawful, rfl⟩⟩
  refine ⟨fun vs same => ⟨?_, ?_⟩, anyText⟩
  · exact anyText _ _ (Manifest.textOf?_pretty _) (Manifest.regionsOf?_plain named same)
  · rw [addAll_plainRegions_iff, addAll_plainRegions_iff]
    exact ⟨fun arranged => arranged.perm same, fun arranged => arranged.perm same.symm⟩

/-- Two neighbours are accepted, and so is a region that ends with the address space. -/
theorem neighbours_are_accepted :
    ([("ram", ⟨0, 0x1000⟩), ("rom", ⟨0x1000, 0x800⟩), ("io", ⟨0x80000000, 0x80000000⟩)].map
      (Prod.fst : String × Window → String)).Nodup ∧
    ∃ m, Manifest.ofBytes (Manifest.bytesOf (Json.pretty (Manifest.regionsJson
      (Manifest.plainRegions [("ram", ⟨0, 0x1000⟩), ("rom", ⟨0x1000, 0x800⟩),
        ("io", ⟨0x80000000, 0x80000000⟩)])))) = .ok m := by
  have named : ([("ram", ⟨0, 0x1000⟩), ("rom", ⟨0x1000, 0x800⟩),
      ("io", ⟨0x80000000, 0x80000000⟩)].map (Prod.fst : String × Window → String)).Nodup := by
    decide
  obtain ⟨written, -⟩ := reader_agrees_with_draft () _ named
  exact ⟨named, (written _ (.refl _)).1.2 ⟨_, rfl⟩⟩

end AddressMap

end InstrumentBus
