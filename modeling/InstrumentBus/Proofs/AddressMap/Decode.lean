import InstrumentBus.Proofs.AddressMap.Draft

/-!
# Which region an address belongs to

Decoding compares an address with the origins above the bits that the sizes leave free. For regions of
permitted size and origin this is membership (`Region.contains_iff_mem`), and since the regions of a map
share no place, the first region that contains an address is the only one (`decode?_eq_some_iff`).
-/

namespace InstrumentBus.AddressMap

variable {α : Type} {addr : Addr} {r : Region α}

/-! ## One region -/

namespace Region

theorem mem_iff : addr ∈ r ↔ addr.toNat ∈ r.window.span :=
  Iff.rfl

theorem contains_iff_mem (placed : r.window.Placed) : r.contains addr = true ↔ addr ∈ r := by
  rw [contains, beq_iff_eq, mem_iff]
  exact placed.agree_iff

theorem toNat_offsetOf (placed : r.window.Placed) (inside : addr ∈ r) :
    (r.offsetOf addr).toNat = addr.toNat - r.origin.toNat :=
  placed.toNat_offset inside

/-- The offset of an address is its distance from the origin. -/
theorem offsetOf_eq_sub (placed : r.window.Placed) (inside : addr ∈ r) :
    r.offsetOf addr = addr - r.origin := by
  apply BitVec.eq_of_toNat_eq
  rw [toNat_offsetOf placed inside, BitVec.toNat_sub_of_le inside.1]

end Region

/-! ## All regions of a map -/

variable {m : AddressMap α}

theorem decode?_eq_none_iff (arranged : Arranged m.regions) :
    m.decode? addr = none ↔ ∀ r ∈ m.regions, addr ∉ r := by
  rw [decode?, List.find?_eq_none]
  refine forall₂_congr fun r present => ?_
  rw [Region.contains_iff_mem (arranged.placed present)]

theorem mem_of_decode?_eq_some (arranged : Arranged m.regions) (found : m.decode? addr = some r) :
    r ∈ m.regions ∧ addr ∈ r := by
  have present : r ∈ m.regions := List.mem_of_find?_eq_some found
  have covers := List.find?_some found
  exact ⟨present, (Region.contains_iff_mem (arranged.placed present)).1 covers⟩

/-- Decoding finds the region that an address belongs to. -/
theorem decode?_eq_some_iff (arranged : Arranged m.regions) :
    m.decode? addr = some r ↔ r ∈ m.regions ∧ addr ∈ r := by
  refine ⟨mem_of_decode?_eq_some arranged, fun ⟨present, inside⟩ => ?_⟩
  cases found : m.decode? addr with
  | none => exact ((decode?_eq_none_iff arranged).1 found r present inside).elim
  | some s =>
    obtain ⟨presentS, insideS⟩ := mem_of_decode?_eq_some arranged found
    rw [arranged.eq_of_mem_span presentS present insideS inside]

/-- A region may end where the address space ends. -/
example : ((AddressMap.mk [.plain "ram" 0 0x1000 (), .plain "io" 0x80000000 0x80000000 ()]).decode?
    0xFFFFFFFF).map Region.name = some "io" := by
  decide +kernel

end InstrumentBus.AddressMap
