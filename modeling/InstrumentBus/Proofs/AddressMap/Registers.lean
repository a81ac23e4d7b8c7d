import InstrumentBus.Proofs.AddressMap.Manifest
import InstrumentBus.Proofs.AddressMap.Placement
import InstrumentBus.Proofs.RegisterFile.Access

/-!
# From the name of a register to the register

A driver looks a register up in the manifest, sends the address over the bus, and the map and the
register file lead the address to a value. `manifest_leads_to_register` says that for every map that a
session draws these four steps agree: the value is that of the register with the name.
-/

namespace InstrumentBus.AddressMap

variable {α : Type} {m : AddressMap α} {r : Region α} {layout : Layout} {i : Nat} {f : Field}

/-! ## Register files in a map -/

/-- Every register file is as large as its layout, and that was put together by adding registers. -/
def Banked (regions : List (Region α)) : Prop :=
  ∀ r ∈ regions, ∀ layout, r.registers = some layout →
    layout.Sound ∧ r.size = BitVec.ofNat 32 layout.size

theorem Banked.nil : Banked ([] : List (Region α)) :=
  fun _ absent => absurd absent List.not_mem_nil

theorem Banked.plain {name : String} {origin : Addr} {size : Word} {owner : α}
    {rest : List (Region α)} (banked : Banked rest) :
    Banked (.plain name origin size owner :: rest) := by
  intro r present layout bank
  rcases List.mem_cons.1 present with rfl | later
  · cases bank
  · exact banked r later layout bank

theorem Banked.ofLayout {name : String} {origin : Addr} {layout : Layout} {owner : α}
    {rest : List (Region α)} (sound : layout.Sound) (banked : Banked rest) :
    Banked (.ofLayout name origin layout owner :: rest) := by
  intro r present other bank
  rcases List.mem_cons.1 present with rfl | later
  · cases bank
    exact ⟨sound, rfl⟩
  · exact banked r later other bank

theorem Placement.region_bank {p : Placement α} (bank : p.region.registers = some layout) :
    layout.Sound ∧ p.region.size = BitVec.ofNat 32 layout.size := by
  cases p with
  | memory name origin size owner => cases bank
  | registers name origin capacity fields owner =>
    cases bank
    exact ⟨Layout.sound_collect capacity fields, rfl⟩

theorem Draft.banked_build (ps : List (Placement α)) :
    Banked (Draft.ofPlacements ps).build.regions := by
  intro r present layout bank
  have taken := (Draft.perm_build (Draft.ofPlacements ps)).mem_iff.1 present
  obtain ⟨p, -, rfl⟩ := Draft.mem_ofPlacements taken
  exact p.region_bank bank

theorem Draft.arranged_build (ps : List (Placement α)) :
    Arranged (Draft.ofPlacements ps).build.regions :=
  (Draft.arranged_ofPlacements ps).perm (Draft.perm_build _).symm

/-- The register `f` lives in place `i` of the register file `r`. -/
structure HoldsRegister (m : AddressMap α) (r : Region α) (layout : Layout) (i : Nat)
    (f : Field) : Prop where
  present : r ∈ m.regions
  bank : r.registers = some layout
  found : layout.fields[i]? = some f

namespace HoldsRegister

theorem place_lt (here : HoldsRegister m r layout i f) : i < layout.count :=
  (Array.getElem?_eq_some_iff.1 here.found).1

/-- The word of a register lies inside its region. -/
theorem word_inside (banked : Banked m.regions) (here : HoldsRegister m r layout i f) :
    4 * i + 4 ≤ r.size.toNat := by
  obtain ⟨sound, size⟩ := banked r here.present layout here.bank
  have place := here.place_lt
  have words := layout.words_le_size
  rw [size, sound.toNat_size]
  omega

theorem toNat_offset (banked : Banked m.regions) (here : HoldsRegister m r layout i f) :
    (Layout.offset i).toNat = 4 * i :=
  (banked r here.present layout here.bank).1.toNat_offset here.place_lt

/-- The sum of an origin and an offset does not wrap. -/
theorem toNat_address (arranged : Arranged m.regions) (banked : Banked m.regions)
    (here : HoldsRegister m r layout i f) :
    (r.origin + Layout.offset i).toNat = r.origin.toNat + 4 * i := by
  have inside := here.word_inside banked
  have limit : r.origin.toNat + r.size.toNat ≤ 2 ^ 32 := (arranged.placed here.present).limit_le
  rw [BitVec.toNat_add, here.toNat_offset banked, Nat.mod_eq_of_lt (by omega)]

theorem aligned (arranged : Arranged m.regions) (banked : Banked m.regions)
    (here : HoldsRegister m r layout i f) : (r.origin + Layout.offset i).Aligned := by
  obtain ⟨sound, size⟩ := banked r here.present layout here.bank
  have words : 4 ∣ r.size.toNat := by
    rw [size, sound.toNat_size]
    exact layout.four_dvd_size
  have origin : 4 ∣ r.origin.toNat := Nat.dvd_trans words (arranged.placed here.present).aligned
  unfold Addr.Aligned
  rw [here.toNat_address arranged banked]
  omega

/-- The manifest resolves the name of a register to its address. -/
theorem manifest_register? (arranged : Arranged m.regions) (banked : Banked m.regions)
    (here : HoldsRegister m r layout i f) :
    m.manifest.register? r.name f.name =
      some (r.origin + Layout.offset i,
        { offset := Layout.offset i, width := f.width, access := f.access }) := by
  obtain ⟨sound, -⟩ := banked r here.present layout here.bank
  have inside := here.word_inside banked
  have limit : r.origin.toNat + r.size.toNat ≤ 2 ^ 32 := (arranged.placed here.present).limit_le
  have registers : r.entry.registers = some layout.manifestRegisters := by
    rw [Region.entry, here.bank]
    rfl
  have fits : r.entry.origin.toNat + (Layout.offset i).toNat < 2 ^ 32 := by
    show r.origin.toNat + (Layout.offset i).toNat < 2 ^ 32
    rw [here.toNat_offset banked]
    omega
  rw [Manifest.register?, manifest_region? arranged here.present, Option.bind_eq_bind,
    Option.bind_some, registers, Option.bind_eq_bind, Option.bind_some,
    sound.find?_manifestRegisters here.found, Option.bind_eq_bind, Option.bind_some,
    Manifest.Region.addressOf?, if_pos fits]
  rfl

theorem mem_span (arranged : Arranged m.regions) (banked : Banked m.regions)
    (here : HoldsRegister m r layout i f) {k : Nat} (byte : k < 4) :
    (r.origin + Layout.offset i).toNat + k ∈ r.window.span := by
  have inside := here.word_inside banked
  rw [here.toNat_address arranged banked]
  show r.origin.toNat ≤ _ ∧ _ < r.origin.toNat + r.size.toNat
  omega

/-- Registers with one address are one register. -/
theorem eq_of_address (arranged : Arranged m.regions) (banked : Banked m.regions)
    (here : HoldsRegister m r layout i f) {s : Region α} {other : Layout} {j : Nat} {g : Field}
    (there : HoldsRegister m s other j g)
    (same : r.origin + Layout.offset i = s.origin + Layout.offset j) : r = s ∧ i = j := by
  have left := here.mem_span arranged banked (show 0 < 4 by decide)
  have right := there.mem_span arranged banked (show 0 < 4 by decide)
  rw [← same] at right
  obtain rfl := arranged.eq_of_mem_span here.present there.present left right
  have places := congrArg BitVec.toNat same
  rw [here.toNat_address arranged banked, there.toNat_address arranged banked] at places
  exact ⟨rfl, by omega⟩

end HoldsRegister

/-- The name of a register of a map leads to the register. The manifest resolves it to an aligned
address whose word lies inside the register's region; the map decodes the address to that region and to
the offset of the register's place; and there the register file reads this register, and writes this
one alone or refuses. No other register of the map has the address. -/
theorem manifest_leads_to_register (ps : List (Placement α))
    (here : HoldsRegister (Draft.ofPlacements ps).build r layout i f) :
    ∃ addr,
      (Draft.ofPlacements ps).build.manifest.register? r.name f.name =
        some (addr, { offset := Layout.offset i, width := f.width, access := f.access }) ∧
      (Draft.ofPlacements ps).build.decode? addr = some r ∧
      r.offsetOf addr = Layout.offset i ∧
      (∀ file : RegisterFile layout,
        file.read (r.offsetOf addr) = .ok (file.value i) ∧
        ∀ (v : Word) (side : Side),
          (f.access.writableBy side = true →
            ∃ after, file.write (r.offsetOf addr) v side = .ok after ∧
              after.value i = Word.merge (file.value i) v (widthMask f.width) ∧
              ∀ j, j ≠ i → after.value j = file.value j) ∧
          (f.access.writableBy side = false →
            file.write (r.offsetOf addr) v side =
              .error (if f.access = .readOnly then .readOnly f.name
                else .wrongSide f.name side))) ∧
      addr.Aligned ∧
      (∀ k < 4, addr.toNat + k ∈ r.window.span) ∧
      ∀ s other j g, HoldsRegister (Draft.ofPlacements ps).build s other j g →
        ∀ reg, (Draft.ofPlacements ps).build.manifest.register? s.name g.name = some (addr, reg) →
          s = r ∧ j = i := by
  have arranged := Draft.arranged_build ps
  have banked := Draft.banked_build ps
  have placed := arranged.placed here.present
  have inside : r.origin + Layout.offset i ∈ r :=
    here.mem_span arranged banked (show 0 < 4 by decide)
  have offset : r.offsetOf (r.origin + Layout.offset i) = Layout.offset i := by
    rw [Region.offsetOf_eq_sub placed inside, BitVec.add_comm, BitVec.add_sub_cancel]
  have leads : layout.indexAt? (r.offsetOf (r.origin + Layout.offset i)) = some i := by
    rw [offset]
    exact (banked r here.present layout here.bank).1.indexAt?_offset here.place_lt
  refine ⟨r.origin + Layout.offset i, here.manifest_register? arranged banked,
    (decode?_eq_some_iff arranged).2 ⟨here.present, inside⟩, offset, fun file => ?_,
    here.aligned arranged banked, fun k byte => here.mem_span arranged banked byte, ?_⟩
  · exact ⟨file.read_of_indexAt? leads, fun v side =>
      ⟨file.write_eq_ok leads here.found v, file.write_eq_error leads here.found v⟩⟩
  · intro s other j g there reg resolved
    rw [there.manifest_register? arranged banked, Option.some.injEq, Prod.mk.injEq] at resolved
    exact there.eq_of_address arranged banked here resolved.1

/-- The third register of a register file behind a memory, where one register and one region were
refused. -/
theorem data_register_resolves :
    ∃ (m : AddressMap Unit) (r : Region Unit) (layout : Layout) (addr : Addr),
      m = (Draft.ofPlacements [.memory "ram" 0x1000 0x1000 (), .memory "rom" 0x1800 0x10 (),
        .registers "spi0" 0x200 Layout.unbounded [⟨"ctrl", 8, .readWrite⟩, ⟨"ctrl", 4, .readOnly⟩,
          ⟨"status", 1, .readOnly⟩, ⟨"data", 32, .readWrite⟩] ()]).build ∧
      HoldsRegister m r layout 2 ⟨"data", 32, .readWrite⟩ ∧
      m.manifest.register? "spi0" "data" =
        some (addr, { offset := 8, width := 32, access := .readWrite }) ∧
      m.decode? addr = some r ∧ r.offsetOf addr = 8 ∧ addr.Aligned := by
  let ps : List (Placement Unit) := [.memory "ram" 0x1000 0x1000 (), .memory "rom" 0x1800 0x10 (),
    .registers "spi0" 0x200 Layout.unbounded [⟨"ctrl", 8, .readWrite⟩, ⟨"ctrl", 4, .readOnly⟩,
      ⟨"status", 1, .readOnly⟩, ⟨"data", 32, .readWrite⟩] ()]
  let layout : Layout :=
    ⟨#[⟨"ctrl", 8, .readWrite⟩, ⟨"status", 1, .readOnly⟩, ⟨"data", 32, .readWrite⟩]⟩
  let r : Region Unit := .ofLayout "spi0" 0x200 layout ()
  have taken : (Draft.ofPlacements ps).regions = [.plain "ram" 0x1000 0x1000 (), r] := by
    decide +kernel
  have here : HoldsRegister (Draft.ofPlacements ps).build r layout 2 ⟨"data", 32, .readWrite⟩ := by
    refine ⟨?_, rfl, rfl⟩
    rw [(Draft.perm_build _).mem_iff, taken]
    exact List.mem_cons_of_mem _ List.mem_cons_self
  obtain ⟨addr, resolved, decoded, offset, -, aligned, -⟩ := manifest_leads_to_register ps here
  exact ⟨_, r, layout, addr, rfl, here, resolved, decoded, offset, aligned⟩

end InstrumentBus.AddressMap
