import InstrumentBus.Proofs.Word.PowerOfTwo
import InstrumentBus.RegisterFile.Layout
import Mathlib.Data.List.Nodup

/-!
# What a layout promises

Registers are added to a layout one at a time, and some are refused. Whatever the order and the
refusals, `Sound` holds of the layout: names are distinct, widths lie between 1 and 32, and the words
take at most half of the address space. So the size of the layout fits a word, the words lie inside it,
and the offset of a place is read back as that place.
-/

namespace InstrumentBus.Layout

/-- The properties of a layout that was put together by adding registers. -/
structure Sound (l : Layout) : Prop where
  named : (l.fields.toList.map Field.name).Nodup
  widths : ∀ f ∈ l.fields, 0 < f.width ∧ f.width ≤ 32
  fits : 4 * l.count ≤ 2 ^ 31

variable {l : Layout}

instance (l : Layout) : Decidable l.Sound :=
  decidable_of_iff
    ((l.fields.toList.map Field.name).Nodup ∧ (∀ f ∈ l.fields, 0 < f.width ∧ f.width ≤ 32) ∧
      4 * l.count ≤ 2 ^ 31)
    ⟨fun ⟨named, widths, fits⟩ => ⟨named, widths, fits⟩,
      fun ⟨named, widths, fits⟩ => ⟨named, widths, fits⟩⟩

theorem sound_empty : Sound ∅ :=
  ⟨List.nodup_nil, fun f present => absurd present (Array.not_mem_empty f), Nat.zero_le _⟩

/-! ## Adding registers -/

theorem add_eq_ok {capacity : Nat} {f : Field} {more : Layout} (added : l.add capacity f = .ok more) :
    more = { fields := l.fields.push f } ∧ (0 < f.width ∧ f.width ≤ 32) ∧
      (∀ g ∈ l.fields, g.name ≠ f.name) ∧ 4 * (l.count + 1) ≤ 2 ^ 31 := by
  unfold add at added
  split at added
  · cases added
  · next width =>
    split at added
    · cases added
    · next fresh =>
      split at added
      · cases added
      · next room =>
        cases added
        refine ⟨rfl, by omega, fun g present sameName => fresh ?_, by omega⟩
        rw [indexOf?, Array.findIdx?_isSome, Array.any_eq_true']
        exact ⟨g, present, beq_of_eq sameName⟩

theorem Sound.add (sound : l.Sound) {capacity : Nat} {f : Field} {more : Layout}
    (added : l.add capacity f = .ok more) : more.Sound := by
  obtain ⟨rfl, width, fresh, room⟩ := add_eq_ok added
  refine ⟨?_, fun g present => ?_, ?_⟩
  · rw [Array.toList_push, List.map_append, List.map_singleton, List.nodup_append]
    refine ⟨sound.named, List.nodup_singleton _, fun name taken last new => ?_⟩
    obtain ⟨g, present, rfl⟩ := List.mem_map.1 taken
    rw [List.mem_singleton.1 new]
    exact fresh g (Array.mem_toList_iff.1 present)
  · rcases Array.mem_push.1 present with early | rfl
    · exact sound.widths g early
    · exact width
  · show 4 * (l.fields.push f).size ≤ 2 ^ 31
    rw [Array.size_push]
    exact room

theorem Sound.go (sound : l.Sound) (capacity : Nat) (fields : List Field) :
    (collect.go capacity l fields).1.Sound := by
  induction fields generalizing l with
  | nil => exact sound
  | cons f rest ih =>
    rw [collect.go]
    cases added : l.add capacity f with
    | ok more => exact ih (sound.add added)
    | error e => exact ih sound

/-- Adding registers in turn makes a sound layout, whatever is refused. -/
theorem sound_collect (capacity : Nat) (fields : List Field) : (collect capacity fields).1.Sound :=
  sound_empty.go capacity fields

theorem mem_of_mem_go {capacity : Nat} {fields : List Field} {f : Field}
    (present : f ∈ (collect.go capacity l fields).1.fields) : f ∈ l.fields ∨ f ∈ fields := by
  induction fields generalizing l with
  | nil => exact .inl present
  | cons g rest ih =>
    rw [collect.go] at present
    cases added : l.add capacity g with
    | ok more =>
      obtain ⟨rfl, -⟩ := add_eq_ok added
      rw [added] at present
      rcases ih present with early | late
      · rcases Array.mem_push.1 early with old | rfl
        · exact .inl old
        · exact .inr List.mem_cons_self
      · exact .inr (List.mem_cons_of_mem _ late)
    | error e =>
      rw [added] at present
      rcases ih present with early | late
      · exact .inl early
      · exact .inr (List.mem_cons_of_mem _ late)

/-- A layout has no other registers than those that were offered to it. -/
theorem mem_of_mem_collect {capacity : Nat} {fields : List Field} {f : Field}
    (present : f ∈ (collect capacity fields).1.fields) : f ∈ fields := by
  rcases mem_of_mem_go present with none | offered
  · exact absurd none (Array.not_mem_empty f)
  · exact offered

/-! ## Sizes -/

theorem isPowerOfTwo_size (l : Layout) : l.size.isPowerOfTwo := by
  unfold size
  rcases Nat.le_total 4 (ceilPowerOfTwo (4 * l.count)) with large | small
  · rw [Nat.max_eq_right large]
    exact isPowerOfTwo_ceilPowerOfTwo _
  · rw [Nat.max_eq_left small]
    exact ⟨2, rfl⟩

theorem four_dvd_size (l : Layout) : 4 ∣ l.size := by
  obtain ⟨k, exponent⟩ := l.isPowerOfTwo_size
  have word : 2 ^ 2 ≤ l.size := Nat.le_max_left _ _
  rw [exponent] at word ⊢
  exact Nat.pow_dvd_pow 2 ((Nat.pow_le_pow_iff_right (by decide)).1 word)

theorem words_le_size (l : Layout) : 4 * l.count ≤ l.size :=
  Nat.le_trans (le_ceilPowerOfTwo _) (Nat.le_max_right _ _)

theorem Sound.toNat_size (sound : l.Sound) : (BitVec.ofNat 32 l.size).toNat = l.size := by
  have small : ceilPowerOfTwo (4 * l.count) ≤ 2 ^ 31 := ceilPowerOfTwo_le sound.fits
  rw [BitVec.toNat_ofNat, Nat.mod_eq_of_lt]
  unfold size
  omega

/-! ## Offsets -/

theorem Sound.toNat_offset (sound : l.Sound) {i : Nat} (inside : i < l.count) :
    (offset i).toNat = 4 * i := by
  have fits := sound.fits
  rw [offset, BitVec.toNat_ofNat, Nat.mod_eq_of_lt (by omega)]

/-- The offset of a place leads back to the place. -/
theorem Sound.indexAt?_offset (sound : l.Sound) {i : Nat} (inside : i < l.count) :
    l.indexAt? (offset i) = some i := by
  have place := sound.toNat_offset inside
  have aligned : (offset i).Aligned := by
    unfold Addr.Aligned
    omega
  have quotient : (offset i).toNat / 4 = i := by omega
  rw [indexAt?, quotient, if_pos ⟨aligned, inside⟩]

end InstrumentBus.Layout
