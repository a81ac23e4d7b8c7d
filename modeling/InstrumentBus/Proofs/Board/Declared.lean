import InstrumentBus.Proofs.AddressMap.Manifest
import InstrumentBus.Proofs.Board.Storage
import InstrumentBus.Proofs.Transport.Backing

/-!
# What a board answers and what its manifest declares

A transaction moves a word, so a board answers every byte of a word that belongs to a region. Regions are made of
whole words, except for RAMs of less than a word: of these the manifest declares one or two bytes, and the board
answers the word. With this exception a board finds something exactly at the addresses where a plain memory made
from its manifest does (`answers_what_is_declared`).
-/

namespace InstrumentBus

/-! ## Regions of whole words -/

namespace AddressMap.Region

variable {α : Type} {r : Region α} {addr : Addr}

theorem four_dvd_size_ofLayout (name : String) (origin : Addr) (l : Layout) (owner : α) :
    4 ∣ (ofLayout name origin l owner).size.toNat := by
  have whole := l.four_dvd_size
  show 4 ∣ (BitVec.ofNat 32 l.size).toNat
  rw [BitVec.toNat_ofNat]
  omega

/-- A region of whole words has all bytes of a word or none. -/
theorem wordBase_mem_iff (placed : r.window.Placed) (whole : 4 ∣ r.size.toNat) :
    addr.wordBase ∈ r ↔ addr ∈ r := by
  have origin : 4 ∣ r.origin.toNat := Nat.dvd_trans whole placed.aligned
  have round := Addr.toNat_wordBase addr
  show r.origin.toNat ≤ addr.wordBase.toNat ∧ addr.wordBase.toNat < r.origin.toNat + r.size.toNat ↔
    r.origin.toNat ≤ addr.toNat ∧ addr.toNat < r.origin.toNat + r.size.toNat
  omega

/-- A region of less than a word has the first bytes of the word at its origin. -/
theorem mem_iff_of_small (origin : 4 ∣ r.origin.toNat) (small : r.size.toNat < 4) :
    addr ∈ r ↔ addr.wordBase = r.origin ∧ addr.toNat % 4 < r.size.toNat := by
  have round := Addr.toNat_wordBase addr
  rw [← BitVec.toNat_inj]
  show r.origin.toNat ≤ addr.toNat ∧ addr.toNat < r.origin.toNat + r.size.toNat ↔ _
  omega

end AddressMap.Region

namespace Board

variable {c : Config} {b : Board} {addr : Addr}

/-- A byte beside a RAM of less than a word, in the same word. -/
def Padding (c : Config) (addr : Addr) : Prop :=
  ∃ s : SharedRam, addr.wordBase = (s.region c).origin ∧ c.ramBytes.toNat ≤ addr.toNat % 4

/-- The word of such a RAM. -/
def Cut (c : Config) (addr : Addr) : Prop :=
  c.ramBytes.toNat < 4 ∧ ∃ s : SharedRam, addr = (s.region c).origin

theorem four_dvd_origin (s : SharedRam) : 4 ∣ (s.region c).origin.toNat := by
  cases s with
  | samples => exact (by decide : 4 ∣ 0x4000)
  | program => exact (by decide : 4 ∣ 0x6000)

/-- Every region is made of whole words, but for RAMs of less than a word. -/
theorem Reachable.whole_or_small (reach : Reachable c b) {region : AddressMap.Region Block}
    (present : region ∈ (b.map .supervisor).regions) :
    4 ∣ region.size.toNat ∨ ∃ s : SharedRam, region = s.region c ∧ (s.region c).size.toNat < 4 := by
  have ram (s : SharedRam) : 4 ∣ (s.region c).size.toNat ∨
      ∃ s' : SharedRam, s.region c = s'.region c ∧ (s'.region c).size.toNat < 4 := by
    rw [s.size_region]
    rcases Nat.lt_or_ge c.ramBytes.toNat 4 with small | populated
    · exact .inr ⟨s, rfl, s.size_region ▸ small⟩
    · exact .inl (reach.four_dvd_ramBytes populated)
  have listed := reach.mem_map.1 present
  simp only [regionsOf, supervisorRegions, List.mem_cons, List.not_mem_nil, or_false] at listed
  rcases listed with rfl | rfl | rfl | rfl | rfl | rfl | rfl | rfl | rfl | rfl | rfl | rfl | rfl <;>
    first
    | exact .inl (AddressMap.Region.four_dvd_size_ofLayout _ _ _ _)
    | exact ram .samples
    | exact ram .program

/-! ## Words and their bytes -/

/-- A region that has a byte of a word has the word. -/
theorem Reachable.wordBase_mem (reach : Reachable c b) {region : AddressMap.Region Block}
    (present : region ∈ (b.map .supervisor).regions) (inside : addr ∈ region) : addr.wordBase ∈ region := by
  have placed := (reach.arranged .supervisor).placed present
  rcases reach.whole_or_small present with whole | ⟨s, rfl, small⟩
  · exact (AddressMap.Region.wordBase_mem_iff placed whole).2 inside
  · obtain ⟨base, -⟩ := (AddressMap.Region.mem_iff_of_small (four_dvd_origin s) small).1 inside
    rw [base]
    exact placed.origin_mem_span

/-- A region that has a word has each of its bytes, but for padding. -/
theorem Reachable.mem_or_padding (reach : Reachable c b) {region : AddressMap.Region Block}
    (present : region ∈ (b.map .supervisor).regions) (base : addr.wordBase ∈ region) :
    addr ∈ region ∨ Padding c addr := by
  have placed := (reach.arranged .supervisor).placed present
  rcases reach.whole_or_small present with whole | ⟨s, rfl, small⟩
  · exact .inl ((AddressMap.Region.wordBase_mem_iff placed whole).1 base)
  · obtain ⟨origin, -⟩ := (AddressMap.Region.mem_iff_of_small (four_dvd_origin s) small).1 base
    rw [Addr.wordBase_of_aligned addr.aligned_wordBase] at origin
    rcases Nat.lt_or_ge (addr.toNat % 4) (s.region c).size.toNat with within | beyond
    · exact .inl ((AddressMap.Region.mem_iff_of_small (four_dvd_origin s) small).2 ⟨origin, within⟩)
    · rw [s.size_region] at beyond
      exact .inr ⟨s, origin, beyond⟩

/-- Padding is no part of any region. -/
theorem Reachable.not_mem_of_padding (reach : Reachable c b) {region : AddressMap.Region Block}
    (present : region ∈ (b.map .supervisor).regions) (padding : Padding c addr) : addr ∉ region := by
  intro inside
  obtain ⟨s, base, beyond⟩ := padding
  have arranged := reach.arranged .supervisor
  have ram := reach.mem_ramRegion s
  have held : addr.wordBase ∈ s.region c := by
    rw [base]
    exact (arranged.placed ram).origin_mem_span
  obtain rfl := arranged.eq_of_mem_span present ram (reach.wordBase_mem present inside) held
  have origin := congrArg BitVec.toNat base
  rw [Addr.toNat_wordBase] at origin
  have below : addr.toNat < (s.region c).origin.toNat + (s.region c).size.toNat := inside.2
  rw [s.size_region] at below
  omega

/-! ## What answers -/

/-- The supervisor finds a byte where a region has its word. -/
theorem Reachable.readByte_cases (reach : Reachable c b) (addr : Addr) :
    ((∃ region ∈ (b.map .supervisor).regions, addr.wordBase ∈ region) ∧
      ∃ v, (Transport.readByte (View.mk .supervisor b) addr).1 = .ok v) ∨
    ((∀ region ∈ (b.map .supervisor).regions, addr.wordBase ∉ region) ∧
      (Transport.readByte (View.mk .supervisor b) addr).1 = .error (.unmapped addr.wordBase)) := by
  show (_ ∧ ∃ v, (b.readByte .supervisor addr).1 = .ok v) ∨
    (_ ∧ (b.readByte .supervisor addr).1 = .error (.unmapped addr.wordBase))
  have shown : (b.perform .supervisor (.readByte addr)).1 =
      (b.readByte .supervisor addr).1.map fun v => v.setWidth 32 := rfl
  rcases reach.perform_cases .supervisor (.readByte addr) with
    ⟨skewed, -⟩ | ⟨-, outside, outcome⟩ | ⟨-, region, present, inside, answered, -, outcome⟩
  · exact absurd (nofun : Op.Aligned (.readByte addr)) skewed
  · rw [outcome] at shown
    refine .inr ⟨outside, ?_⟩
    cases read : (b.readByte .supervisor addr).1 with
    | error e =>
      rw [read] at shown
      cases shown
      rfl
    | ok v =>
      rw [read] at shown
      cases shown
  · rw [outcome] at shown
    refine .inl ⟨⟨region, present, inside⟩, ?_⟩
    cases read : (b.readByte .supervisor addr).1 with
    | error e =>
      rw [read] at shown
      cases shown
    | ok v => exact ⟨v, rfl⟩

/-- It finds a word where a region has it. -/
theorem Reachable.readWord_cases (reach : Reachable c b) (aligned : addr.Aligned) :
    ((∃ region ∈ (b.map .supervisor).regions, addr ∈ region) ∧
      ∃ w, (Transport.readWord (View.mk .supervisor b) addr).1 = .ok w) ∨
    ((∀ region ∈ (b.map .supervisor).regions, addr ∉ region) ∧
      (Transport.readWord (View.mk .supervisor b) addr).1 = .error (.unmapped addr)) := by
  have base := Addr.wordBase_of_aligned aligned
  rcases reach.perform_cases .supervisor (.readWord addr) with
    ⟨skewed, -⟩ | ⟨-, outside, outcome⟩ | ⟨-, region, present, inside, answered, -, outcome⟩
  · exact absurd (fun _ => aligned) skewed
  · rw [Op.addr, base] at outside outcome
    exact .inr ⟨outside, congrArg Prod.fst outcome⟩
  · rw [Op.addr, base] at inside
    exact .inl ⟨⟨region, present, inside⟩, _, congrArg Prod.fst outcome⟩

/-- The memory that the manifest of the supervisor declares. -/
def declared (b : Board) : Memory :=
  .ofManifest (b.manifest .supervisor)

/-- The memory has the bytes of the regions. -/
theorem Reachable.backs_declared (reach : Reachable c b) (a : Nat) :
    b.declared.backs a = true ↔ ∃ region ∈ (b.map .supervisor).regions, a ∈ region.window.span := by
  have arranged := reach.arranged .supervisor
  have listed := fun e => (AddressMap.perm_manifest_entries arranged).mem_iff (a := e)
  have ends : Memory.InSpace ((b.manifest .supervisor).regions.entries.map fun e => (e.2.origin, e.2.size)) := by
    intro range made
    obtain ⟨e, entry, rfl⟩ := List.mem_map.1 made
    obtain ⟨region, present, rfl⟩ := List.mem_map.1 ((listed e).1 entry)
    exact (arranged.placed present).limit_le
  rw [declared, Memory.ofManifest, Memory.backs_of_ranges rfl ends]
  constructor
  · rintro ⟨range, made, inside⟩
    obtain ⟨e, entry, rfl⟩ := List.mem_map.1 made
    obtain ⟨region, present, rfl⟩ := List.mem_map.1 ((listed e).1 entry)
    exact ⟨region, present, inside⟩
  · rintro ⟨region, present, inside⟩
    have entry := (listed _).2 (List.mem_map.2 ⟨region, present, rfl⟩)
    exact ⟨_, List.mem_map.2 ⟨_, entry, rfl⟩, inside⟩

/-! ## The bytes of a word -/

theorem toNat_byteAddr (aligned : addr.Aligned) {k : Nat} (inWord : k < 4) :
    (addr + BitVec.ofNat 32 k).toNat = addr.toNat + k := by
  have limit : addr.toNat + 4 ≤ 2 ^ 32 := by
    have bound := addr.isLt
    unfold Addr.Aligned at aligned
    omega
  exact Addr.toNat_add_ofNat limit inWord

theorem wordBase_byteAddr (aligned : addr.Aligned) {k : Nat} (inWord : k < 4) :
    (addr + BitVec.ofNat 32 k).wordBase = addr := by
  apply BitVec.eq_of_toNat_eq
  rw [Addr.toNat_wordBase, toNat_byteAddr aligned inWord]
  unfold Addr.Aligned at aligned
  omega

theorem cut_of_padding (aligned : addr.Aligned) {k : Nat} (inWord : k < 4)
    (padding : Padding c (addr + BitVec.ofNat 32 k)) : Cut c addr := by
  obtain ⟨s, base, beyond⟩ := padding
  rw [wordBase_byteAddr aligned inWord] at base
  exact ⟨by omega, s, base⟩

theorem Cut.aligned (cut : Cut c addr) : addr.Aligned := by
  obtain ⟨-, s, rfl⟩ := cut
  exact Nat.mod_eq_zero_of_dvd (four_dvd_origin s)

/-- Of a word that is cut the first byte beside the RAM is missing. -/
theorem Reachable.firstMissing_of_cut (reach : Reachable c b) (cut : Cut c addr) :
    b.declared.FirstMissing addr c.ramBytes.toNat := by
  have aligned := cut.aligned
  obtain ⟨small, s, rfl⟩ := cut
  refine ⟨small, ?_, fun j within => ?_⟩
  · rw [← Bool.not_eq_true, reach.backs_declared]
    rintro ⟨region, present, inside⟩
    rw [← toNat_byteAddr aligned small] at inside
    refine reach.not_mem_of_padding present ⟨s, wordBase_byteAddr aligned small, ?_⟩ inside
    rw [toNat_byteAddr aligned small]
    unfold Addr.Aligned at aligned
    omega
  · refine (reach.backs_declared _).2 ⟨s.region c, reach.mem_ramRegion s, ?_, ?_⟩
    · exact Nat.le_add_right _ _
    · show _ < (s.region c).origin.toNat + (s.region c).size.toNat
      rw [s.size_region]
      omega

/-! ## The board and the memory -/

/-- Two outcomes tell alike whether anything is at an address. -/
def Concur {α : Type} (x y : Except Fault α) : Prop :=
  ((∃ v, x = .ok v) ∧ ∃ v, y = .ok v) ∨
    ((∃ a, x = .error (.unmapped a)) ∧ ∃ a, y = .error (.unmapped a))

theorem Reachable.bytes_concur (reach : Reachable c b) (apart : ¬Padding c addr) :
    Concur (Transport.readByte (View.mk .supervisor b) addr).1 (Transport.readByte b.declared addr).1 := by
  rcases reach.readByte_cases addr with ⟨⟨region, present, base⟩, found⟩ | ⟨outside, fault⟩
  · have inside := (reach.mem_or_padding present base).resolve_right apart
    have backed := (reach.backs_declared addr.toNat).2 ⟨region, present, inside⟩
    rcases b.declared.transport_readByte addr with ⟨-, read⟩ | ⟨missing, -⟩
    · exact .inl ⟨found, read⟩
    · cases missing.symm.trans backed
  · rcases b.declared.transport_readByte addr with ⟨backed, -⟩ | ⟨-, raised⟩
    · obtain ⟨region, present, inside⟩ := (reach.backs_declared addr.toNat).1 backed
      exact absurd (reach.wordBase_mem present inside) (outside region present)
    · exact .inr ⟨⟨_, fault⟩, _, raised⟩

theorem Reachable.padding_differs (reach : Reachable c b) (padding : Padding c addr) :
    (∃ v, (Transport.readByte (View.mk .supervisor b) addr).1 = .ok v) ∧
      (Transport.readByte b.declared addr).1 = .error (.unmapped addr) := by
  constructor
  · rcases reach.readByte_cases addr with ⟨-, found⟩ | ⟨outside, -⟩
    · exact found
    · obtain ⟨s, base, -⟩ := padding
      have ram := reach.mem_ramRegion s
      refine absurd ?_ (outside _ ram)
      rw [base]
      exact ((reach.arranged .supervisor).placed ram).origin_mem_span
  · rcases b.declared.transport_readByte addr with ⟨backed, -⟩ | ⟨-, raised⟩
    · obtain ⟨region, present, inside⟩ := (reach.backs_declared addr.toNat).1 backed
      exact absurd inside (reach.not_mem_of_padding present padding)
    · exact raised

theorem Reachable.words_concur (reach : Reachable c b) (aligned : addr.Aligned) (other : addr ≠ Memory.lastWord)
    (whole : ¬Cut c addr) :
    Concur (Transport.readWord (View.mk .supervisor b) addr).1 (Transport.readWord b.declared addr).1 := by
  rcases reach.readWord_cases aligned with ⟨⟨region, present, inside⟩, found⟩ | ⟨outside, fault⟩
  · rcases b.declared.transport_readWord aligned other with ⟨-, read⟩ | ⟨k, first, -⟩
    · exact .inl ⟨found, read⟩
    · -- a byte that is missing would be padding
      have base : (addr + BitVec.ofNat 32 k).wordBase ∈ region := by
        rwa [wordBase_byteAddr aligned first.inWord]
      rcases reach.mem_or_padding present base with held | padding
      · have backed := (reach.backs_declared _).2 ⟨region, present, held⟩
        rw [toNat_byteAddr aligned first.inWord] at backed
        cases first.missing.symm.trans backed
      · exact absurd (cut_of_padding aligned first.inWord padding) whole
  · rcases b.declared.transport_readWord aligned other with ⟨backed, -⟩ | ⟨k, -, raised⟩
    · obtain ⟨region, present, inside⟩ := (reach.backs_declared addr.toNat).1 (backed 0 (by decide))
      exact absurd inside (outside region present)
    · exact .inr ⟨⟨_, fault⟩, _, raised⟩

theorem Reachable.cut_differs (reach : Reachable c b) (cut : Cut c addr) :
    (∃ w, (Transport.readWord (View.mk .supervisor b) addr).1 = .ok w) ∧
      (Transport.readWord b.declared addr).1 = .error (.unmapped (addr + c.ramBytes)) := by
  have first := reach.firstMissing_of_cut cut
  have aligned := cut.aligned
  obtain ⟨-, s, rfl⟩ := cut
  constructor
  · rcases reach.readWord_cases aligned with ⟨-, found⟩ | ⟨outside, -⟩
    · exact found
    · have ram := reach.mem_ramRegion s
      exact absurd ((reach.arranged .supervisor).placed ram).origin_mem_span (outside _ ram)
  · have other : (s.region c).origin ≠ Memory.lastWord := by
      cases s with
      | samples => exact (by decide : 0x4000 ≠ Memory.lastWord)
      | program => exact (by decide : 0x6000 ≠ Memory.lastWord)
    have below := Memory.below_of_ne_lastWord aligned other
    have raised := congrArg Prod.fst (first.transport_readWord aligned below)
    rwa [BitVec.ofNat_toNat, BitVec.setWidth_eq] at raised

/-- A board and the memory that its manifest declares tell alike whether there is a byte at an address, unless the
byte is padding, and whether there is a word at any address but the last, unless the word is cut; padding and words
that are cut are answered by the board alone. On a board with RAMs of a word or more there are none of these. -/
theorem answers_what_is_declared (reach : Reachable c b) (addr : Addr) :
    (¬Padding c addr →
      Concur (Transport.readByte (View.mk .supervisor b) addr).1 (Transport.readByte b.declared addr).1) ∧
    (Padding c addr →
      (∃ v, (Transport.readByte (View.mk .supervisor b) addr).1 = .ok v) ∧
        (Transport.readByte b.declared addr).1 = .error (.unmapped addr)) ∧
    (addr.Aligned → addr ≠ Memory.lastWord → ¬Cut c addr →
      Concur (Transport.readWord (View.mk .supervisor b) addr).1 (Transport.readWord b.declared addr).1) ∧
    (Cut c addr →
      (∃ w, (Transport.readWord (View.mk .supervisor b) addr).1 = .ok w) ∧
        (Transport.readWord b.declared addr).1 = .error (.unmapped (addr + c.ramBytes))) ∧
    (4 ≤ c.ramBytes.toNat → ¬Padding c addr ∧ ¬Cut c addr) := by
  refine ⟨reach.bytes_concur, reach.padding_differs, reach.words_concur, reach.cut_differs, ?_⟩
  refine fun populated => ⟨?_, ?_⟩
  · rintro ⟨s, -, beyond⟩
    have lane := Nat.mod_lt addr.toNat (show 4 > 0 by decide)
    omega
  · rintro ⟨small, -⟩
    omega

/-- A board whose RAMs have a number of bytes that may be less than a word. -/
def Config.withRamBytes (ramBytes : Word) : Config :=
  { Config.standard with ramBytes }

/-- With RAMs of two bytes, the second is declared and the third is not. -/
theorem two_bytes_are_declared : ∃ b, Reachable (.withRamBytes 2) b ∧
    Concur (Transport.readByte (View.mk .supervisor b) 0x4001).1 (Transport.readByte b.declared 0x4001).1 ∧
    (Transport.readByte b.declared 0x4002).1 = .error (.unmapped 0x4002) := by
  obtain ⟨b, assembled⟩ : ∃ b, assemble (.withRamBytes 2) = .ok b := ⟨_, rfl⟩
  have reach := Reachable.assembled assembled
  obtain ⟨agree, -⟩ := answers_what_is_declared reach 0x4001
  obtain ⟨-, differ, -⟩ := answers_what_is_declared reach 0x4002
  refine ⟨b, reach, agree ?_, (differ ⟨.samples, by decide, by decide⟩).2⟩
  rintro ⟨s, base, beyond⟩
  exact absurd beyond (by decide)

/-- With RAMs of one byte, the board answers the byte beside the declared one. -/
theorem byte_beside_tiny_ram_is_answered : ∃ b, assemble (.withRamBytes 1) = .ok b ∧
    (∃ v, (Transport.readByte (View.mk .supervisor b) 0x4001).1 = .ok v) ∧
    (Transport.readByte b.declared 0x4001).1 = .error (.unmapped 0x4001) := by
  obtain ⟨b, assembled⟩ : ∃ b, assemble (.withRamBytes 1) = .ok b := ⟨_, rfl⟩
  exact ⟨b, assembled, (Reachable.assembled assembled).padding_differs ⟨.samples, by decide, by decide⟩⟩

end Board

end InstrumentBus
