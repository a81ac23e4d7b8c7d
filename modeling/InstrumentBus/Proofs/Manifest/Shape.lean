import InstrumentBus.Manifest.Reader
import InstrumentBus.Proofs.Json.RoundTrip
import InstrumentBus.Proofs.NameMap.Entries

/-!
# Written regions are read back

The reader of manifests finds in the text of a set of regions just these regions, as long as every width
is a number that the reader takes (`regionsOf?_text`).
-/

namespace InstrumentBus.Manifest

open Json (Plain)

/-- The widths that the text of a manifest can have. -/
def Region.Narrow (r : Region) : Prop :=
  ∀ registers, r.registers = some registers → ∀ e ∈ registers.entries, e.2.width < 256

/-! ## Plain values -/

theorem plain_accessJson (access : Access) : Plain (accessJson access) := by
  cases access with
  | readOnly => exact .string _
  | readWrite => exact .string _
  | ownedBy side =>
    refine .object fun m present => ?_
    rw [List.mem_singleton.1 present]
    exact .string _

theorem Register.plain_toJson (reg : Register) : Plain reg.toJson := by
  refine .object fun m present => ?_
  simp only [List.mem_cons, List.not_mem_nil, or_false] at present
  rcases present with rfl | rfl | rfl
  · exact .natural _
  · exact .natural _
  · exact plain_accessJson _

theorem Region.plain_toJson (r : Region) : Plain r.toJson := by
  refine .object fun m present => ?_
  rw [List.mem_cons, List.mem_cons] at present
  rcases present with rfl | rfl | inRegisters
  · exact .natural _
  · exact .natural _
  · cases registers : r.registers with
    | none =>
      rw [registers] at inRegisters
      cases inRegisters
    | some registers =>
      rw [‹r.registers = _›] at inRegisters
      rw [List.mem_singleton.1 inRegisters]
      refine .object fun m present => ?_
      obtain ⟨e, -, rfl⟩ := List.mem_map.1 present
      exact e.2.plain_toJson

/-! ## Maps -/

/-- The members of a map are read back if each value is. -/
theorem membersOf?_map {α : Type} {f : Json.Read → Option α} {g : α → Json.Read}
    {l : List (String × α)} (each : ∀ e ∈ l, f (g e.2) = some e.2) :
    membersOf? f (l.map fun e => (some e.1, g e.2)) = some l := by
  induction l with
  | nil => rfl
  | cons e rest ih =>
    rw [List.map_cons, membersOf?, each e List.mem_cons_self,
      ih fun d later => each d (List.mem_cons_of_mem _ later)]
    rfl

/-- The map of the members is read if each value is read back. -/
theorem mapOf?_object {α : Type} {f : Json.Read → Option α} (toJson : α → Json String)
    {l : List (String × α)} (each : ∀ e ∈ l, f ((toJson e.2).map some) = some e.2) :
    mapOf? f ((Json.object (l.map fun e => (e.1, toJson e.2))).map some) =
      some (NameMap.ofList l) := by
  rw [Json.map, List.map_map]
  show (membersOf? f (l.map fun e => (some e.1, (toJson e.2).map some))).map _ = _
  rw [membersOf?_map (g := fun a => (toJson a).map some) each, Option.map_some]

/-! ## Registers -/

theorem wordOf?_natural (w : Word) : wordOf? (.natural w.toNat) = some w := by
  rw [wordOf?, Json.naturalBelow?, if_pos w.isLt, Option.map_some, BitVec.ofNat_toNat,
    BitVec.setWidth_eq]

theorem accessOf?_accessJson (access : Access) :
    accessOf? ((accessJson access).map some) = some access := by
  cases access with
  | readOnly => simp [accessJson, Json.map, accessOf?]
  | readWrite => simp [accessJson, Json.map, accessOf?]
  | ownedBy side => cases side <;> simp [accessJson, Json.map, accessOf?, sideOf?, Side.key]

theorem registerOf?_toJson {reg : Register} (narrow : reg.width < 256) :
    registerOf? (reg.toJson.map some) = some reg := by
  have fields : registerOfFields? (.natural reg.offset.toNat) (.natural reg.width)
      ((accessJson reg.access).map some) = some reg := by
    rw [registerOfFields?, wordOf?_natural, accessOf?_accessJson, Json.naturalBelow?, if_pos narrow]
    rfl
  rw [Register.toJson]
  simp only [Json.map, List.map_cons, List.map_nil, registerOf?]
  exact fields

/-! ## Regions -/

/-- The registers of a region as JSON. -/
def registersJson (registers : NameMap Register) : Json String :=
  .object (registers.entries.map fun e => (e.1, e.2.toJson))

theorem registersOf?_registersJson {registers : NameMap Register}
    (narrow : ∀ e ∈ registers.entries, e.2.width < 256) :
    registersOf? ((registersJson registers).map some) = some (some registers) := by
  have read := mapOf?_object Register.toJson fun e present =>
    registerOf?_toJson (narrow e present)
  rw [Json.map] at read
  rw [registersJson, Json.map]
  show (mapOf? registerOf? (.object _)).map some = _
  rw [read, Option.map_some, NameMap.ofList_entries]

theorem regionOf?_toJson {r : Region} (narrow : r.Narrow) :
    regionOf? (r.toJson.map some) = some r := by
  obtain ⟨origin, size, registers⟩ := r
  cases registers with
  | none =>
    have fields : regionOfFields? (.natural origin.toNat) (.natural size.toNat) none =
        some ⟨origin, size, none⟩ := by
      rw [regionOfFields?, wordOf?_natural, wordOf?_natural]
      rfl
    rw [Region.toJson]
    simp only [Json.map, List.map_cons, List.map_nil, regionOf?]
    exact fields
  | some registers =>
    have fields : regionOfFields? (.natural origin.toNat) (.natural size.toNat)
        (some ((registersJson registers).map some)) = some ⟨origin, size, some registers⟩ := by
      rw [regionOfFields?, wordOf?_natural, wordOf?_natural, Option.getD_some,
        registersOf?_registersJson (narrow registers rfl)]
      rfl
    show regionOf? ((Json.object [("origin", .natural origin.toNat), ("size", .natural size.toNat),
      ("registers", registersJson registers)]).map some) = _
    simp only [Json.map, List.map_cons, List.map_nil, regionOf?]
    exact fields

/-- Named regions as JSON, in the order of the list. -/
def regionsJson (l : List (String × Region)) : Json String :=
  .object (l.map fun e => (e.1, e.2.toJson))

/-- The text of named regions is read as the map of these regions. -/
theorem regionsOf?_pretty {l : List (String × Region)} (narrow : ∀ e ∈ l, e.2.Narrow) :
    regionsOf? (bytesOf (Json.pretty (regionsJson l))) = some (NameMap.ofList l) := by
  have plain : Plain (regionsJson l) := by
    refine .object fun m present => ?_
    obtain ⟨e, -, rfl⟩ := List.mem_map.1 present
    exact e.2.plain_toJson
  rw [regionsOf?, Json.read?_pretty plain, Option.bind_some]
  exact mapOf?_object Region.toJson fun e present => regionOf?_toJson (narrow e present)

/-- The text of a set of regions is read as these regions. -/
theorem regionsOf?_text {regions : Regions} (narrow : ∀ e ∈ regions.entries, e.2.Narrow) :
    regionsOf? (bytesOf regions.text) = some regions := by
  have read := regionsOf?_pretty narrow
  rwa [NameMap.ofList_entries] at read

theorem pretty_regionsJson (l : List (String × Region)) :
    ∃ more, bytesOf (Json.pretty (regionsJson l)) = Json.ascii '\x7b' :: more := by
  rw [Json.pretty, Json.bytesOf_ofList, regionsJson]
  cases l with
  | nil => exact ⟨[Json.ascii '\x7d'], rfl⟩
  | cons e rest =>
    have text := Json.utf8_object 0 (e.1, e.2.toJson)
      (rest.map fun e => (e.1, e.2.toJson)) []
    rw [List.append_nil] at text
    exact ⟨_, text⟩

/-- A text that begins with a brace is not taken for compressed data. -/
theorem textOf?_pretty (l : List (String × Region)) :
    textOf? (bytesOf (Json.pretty (regionsJson l))) =
      some (bytesOf (Json.pretty (regionsJson l))) := by
  obtain ⟨more, text⟩ := pretty_regionsJson l
  rw [text]
  rfl

end InstrumentBus.Manifest
