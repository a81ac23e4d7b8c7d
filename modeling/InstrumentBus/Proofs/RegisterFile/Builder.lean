import InstrumentBus.Proofs.RegisterFile.Layout
import InstrumentBus.RegisterFile.Builder
import Mathlib.Order.Bounds.Basic

/-!
# Adding registers in turn

A builder computes a size before it adds a register, and the sizes that it keeps must fit the registers
through all refusals. `Builder.add_eq` compares one addition with that to a plain layout, which keeps no
size; what holds of a whole session follows by induction, with `Builder.Settled` as the invariant.
`registers_are_added_in_turn` puts the promises together: which additions are refused and why, that a refusal
leaves everything as it was, where the registers lie, and that the size is the least one that holds them.
-/

namespace InstrumentBus

/-! ## Sizes -/

/-- The least power of two that holds a number of bytes fits a word if the number is at most half the address
space. -/
theorem ceilPowerOfTwo_lt_iff {n : Nat} : ceilPowerOfTwo n < 2 ^ 32 ↔ n ≤ 2 ^ 31 := by
  constructor
  · intro fits
    have exponent : bitLength (n - 1) < 32 := (Nat.pow_lt_pow_iff_right (by decide)).1 fits
    have least : ceilPowerOfTwo n ≤ 2 ^ 31 := Nat.pow_le_pow_right (by decide) (by omega)
    exact Nat.le_trans (le_ceilPowerOfTwo n) least
  · intro small
    have least : ceilPowerOfTwo n ≤ 2 ^ 31 := ceilPowerOfTwo_le small
    omega

theorem roundUpToMachineWidth_isNone (width : Nat) :
    (roundUpToMachineWidth width).toOption.isNone = true ↔ 32 < width := by
  unfold roundUpToMachineWidth
  split
  · simp [Except.toOption]; omega
  · split
    · simp [Except.toOption]; omega
    · split
      · simp [Except.toOption]; omega
      · simp [Except.toOption]; omega

namespace Layout

variable {l : Layout} {f : Field}

/-- The size of a layout is the least power of two that holds a word and all its registers. -/
theorem isLeast_size (l : Layout) :
    IsLeast {n : Nat | n.isPowerOfTwo ∧ 4 ≤ n ∧ 4 * l.count ≤ n} l.size := by
  refine ⟨⟨l.isPowerOfTwo_size, Nat.le_max_left _ _, l.words_le_size⟩, ?_⟩
  rintro _ ⟨⟨k, rfl⟩, word, words⟩
  exact Nat.max_le.2 ⟨word, ceilPowerOfTwo_le words⟩

/-- The registers of a layout take one word each, from zero on. -/
theorem Sound.toNat_offsets (sound : l.Sound) :
    ((List.range l.count).map offset).map BitVec.toNat = (List.range l.count).map (4 * ·) := by
  rw [List.map_map]
  apply List.map_congr_left
  intro i listed
  exact sound.toNat_offset (List.mem_range.1 listed)

theorem indexOf?_isSome_iff (l : Layout) (name : String) :
    (l.indexOf? name).isSome = true ↔ ∃ g ∈ l.fields, g.name = name := by
  rw [indexOf?, Array.findIdx?_isSome, Array.any_eq_true']
  simp

namespace Builder

variable {b : Builder}

/-! ## One register -/

/-- A builder between two additions: the layout keeps the rules of layouts, and the size is that of the
layout. -/
structure Settled (b : Builder) : Prop where
  sound : b.layout.Sound
  size : b.size = b.layout.size

theorem settled_new (capacity : Option Addr) : (new capacity).Settled :=
  ⟨sound_empty, rfl⟩

theorem Settled.nextEnd (settled : b.Settled) : b.nextEnd = 4 * (b.layout.count + 1) := by
  have fits := settled.sound.fits
  rw [Builder.nextEnd, offset, BitVec.toNat_ofNat, Nat.mod_eq_of_lt (by omega)]
  omega

/-- Rounding the end of a register up fails just if the register would end past half the address space. -/
theorem Settled.bytesWith (settled : b.Settled) (f : Field) :
    b.bytesWith f = (b.layout.add b.limit f).map fun _ => ceilPowerOfTwo (4 * (b.layout.count + 1)) := by
  have width : f.width = 0 ∨ (roundUpToMachineWidth f.width).toOption.isNone = true ↔
      f.width = 0 ∨ 32 < f.width := or_congr_right (roundUpToMachineWidth_isNone f.width)
  have fits := settled.sound.fits
  rw [Builder.bytesWith, Layout.add, settled.nextEnd, if_congr width rfl rfl]
  split
  · rfl
  · split
    · rfl
    · by_cases full : b.limit < 4 * (b.layout.count + 1)
      · rw [if_pos (.inr full), if_pos (.inl full)]
        rfl
      · rw [if_neg (by omega), roundUpToPowerOfTwo, if_neg (by omega)]
        by_cases half : 2 ^ 31 < 4 * (b.layout.count + 1)
        · have wide : ¬ceilPowerOfTwo (4 * (b.layout.count + 1)) < 2 ^ 32 := by
            rw [ceilPowerOfTwo_lt_iff]
            omega
          rw [if_neg wide, if_pos (.inr half)]
          rfl
        · have narrow : ceilPowerOfTwo (4 * (b.layout.count + 1)) < 2 ^ 32 := by
            rw [ceilPowerOfTwo_lt_iff]
            omega
          rw [if_pos narrow, if_neg (by omega)]
          rfl

/-- An addition to a builder is one to its layout; the size follows, and a refusal changes nothing. -/
theorem Settled.add_eq (settled : b.Settled) (f : Field) :
    b.add f =
      match b.layout.add b.limit f with
      | .ok more =>
        (.ok (offset b.layout.count),
          { b with layout := more, bytes := ceilPowerOfTwo (4 * (b.layout.count + 1)) })
      | .error e => (.error e, b) := by
  rw [add, settled.bytesWith]
  cases added : b.layout.add b.limit f with
  | error e => rfl
  | ok more =>
    rcases add_eq_ok added with ⟨rfl, -⟩
    rfl

theorem Settled.add (settled : b.Settled) (f : Field) : (b.add f).2.Settled := by
  rw [settled.add_eq]
  cases added : b.layout.add b.limit f with
  | error e => exact settled
  | ok more =>
    refine ⟨settled.sound.add added, ?_⟩
    rcases add_eq_ok added with ⟨rfl, -⟩
    show max 4 _ = max 4 (ceilPowerOfTwo (4 * (b.layout.fields.push f).size))
    rw [Array.size_push]
    rfl

theorem capacity_add (b : Builder) (f : Field) : (b.add f).2.capacity = b.capacity := by
  rw [add]
  split <;> rfl

theorem limit_add (b : Builder) (f : Field) : (b.add f).2.limit = b.limit := by
  rw [limit, capacity_add]
  rfl

/-- Why a register cannot be added. -/
inductive Refusal (b : Builder) (f : Field) : LayoutError → Prop
  /-- The width comes first. -/
  | badWidth : ¬(1 ≤ f.width ∧ f.width ≤ 32) → Refusal b f (.badWidth f.name f.width)
  /-- Of those of a permitted width, a register whose name is taken. -/
  | duplicate : 1 ≤ f.width ∧ f.width ≤ 32 → (∃ g ∈ b.layout.fields, g.name = f.name) →
    Refusal b f (.duplicate f.name)
  /-- Of those with a new name as well, a register that would end past the capacity or half the address space. -/
  | full : 1 ≤ f.width ∧ f.width ≤ 32 → (∀ g ∈ b.layout.fields, g.name ≠ f.name) →
    (∃ c, b.capacity = some c ∧ c.toNat < 4 * (b.layout.count + 1)) ∨ 2 ^ 31 < 4 * (b.layout.count + 1) →
    Refusal b f (.full f.name b.limit)

/-- Without a capacity the address space is the limit, which is past its half. -/
theorem exceeds_iff (b : Builder) (n : Nat) :
    b.limit < n ∨ 2 ^ 31 < n ↔ (∃ c, b.capacity = some c ∧ c.toNat < n) ∨ 2 ^ 31 < n := by
  rw [limit]
  cases b.capacity with
  | none => simp [unbounded]; omega
  | some c => simp

theorem add_refused_iff (b : Builder) (f : Field) (e : LayoutError) :
    b.layout.add b.limit f = .error e ↔ b.Refusal f e := by
  have taken_iff := b.layout.indexOf?_isSome_iff f.name
  have full_iff := b.exceeds_iff (4 * (b.layout.count + 1))
  constructor
  · intro refused
    unfold Layout.add at refused
    split at refused
    · cases refused
      exact .badWidth (by omega)
    · have width : 1 ≤ f.width ∧ f.width ≤ 32 := by omega
      split at refused
      · next taken =>
        cases refused
        exact .duplicate width (taken_iff.1 taken)
      · next fresh =>
        split at refused
        · next full =>
          cases refused
          exact .full width (fun g present same => fresh (taken_iff.2 ⟨g, present, same⟩)) (full_iff.1 full)
        · cases refused
  · intro refusal
    cases refusal with
    | badWidth wrong => rw [Layout.add, if_pos (by omega)]
    | duplicate width taken => rw [Layout.add, if_neg (by omega), if_pos (taken_iff.2 taken)]
    | full width fresh full =>
      have new : ¬(b.layout.indexOf? f.name).isSome = true := by
        intro taken
        rcases taken_iff.1 taken with ⟨g, present, same⟩
        exact fresh g present same
      rw [Layout.add, if_neg (by omega), if_neg new, if_pos (full_iff.2 full)]

/-! ## Sessions -/

theorem Settled.addAll (settled : b.Settled) (fields : List Field) : (b.addAll fields).2.Settled := by
  induction fields generalizing b with
  | nil => exact settled
  | cons f rest ih => exact ih (settled.add f)

theorem capacity_addAll (b : Builder) (fields : List Field) : (b.addAll fields).2.capacity = b.capacity := by
  induction fields generalizing b with
  | nil => rfl
  | cons f rest ih => exact (ih (b.add f).2).trans (b.capacity_add f)

/-- A session makes the layout that is collected from its registers, and is answered the same. -/
theorem Settled.collect_eq (settled : b.Settled) (fields : List Field) :
    collect.go b.limit b.layout fields = ((b.addAll fields).2.layout, (b.addAll fields).1) := by
  induction fields generalizing b with
  | nil => rfl
  | cons f rest ih =>
    have next := ih (settled.add f)
    rw [limit_add] at next
    rw [collect.go, Builder.addAll]
    cases added : b.layout.add b.limit f with
    | error e =>
      rw [settled.add_eq, added] at next ⊢
      simp only [next, Prod.map]
      rfl
    | ok more =>
      rw [settled.add_eq, added] at next ⊢
      simp only [next, Prod.map]
      rfl

/-- The registers of a session that were added, with the offsets that were answered. -/
def accepted (fields : List Field) (answers : List (Except LayoutError Addr)) : List (Field × Addr) :=
  (fields.zip answers).filterMap fun (f, answer) => answer.toOption.map (f, ·)

/-- The registers that are added come behind those that were there, one word each. -/
theorem Settled.accepted (settled : b.Settled) (fields : List Field) :
    (b.addAll fields).2.layout.fields.toList =
        b.layout.fields.toList ++ (Builder.accepted fields (b.addAll fields).1).map Prod.fst ∧
      (Builder.accepted fields (b.addAll fields).1).map Prod.snd =
        (List.range' b.layout.count (Builder.accepted fields (b.addAll fields).1).length).map offset := by
  induction fields generalizing b with
  | nil => exact ⟨(List.append_nil _).symm, rfl⟩
  | cons f rest ih =>
    rcases ih (settled.add f) with ⟨registers, offsets⟩
    rw [Builder.addAll]
    cases added : b.layout.add b.limit f with
    | error e =>
      rw [settled.add_eq, added] at registers offsets ⊢
      exact ⟨registers, offsets⟩
    | ok more =>
      rw [settled.add_eq, added] at registers offsets ⊢
      rcases add_eq_ok added with ⟨rfl, -⟩
      have grown : Layout.count { fields := b.layout.fields.push f } = b.layout.count + 1 :=
        Array.size_push f
      rw [grown] at offsets
      constructor
      · rw [Array.toList_push, List.append_assoc] at registers
        exact registers
      · exact congrArg (offset b.layout.count :: ·) offsets

/-! ## Promises -/

/-- What a builder promises after a session in which the registers `fields` were given these answers. -/
structure Keeps (b : Builder) (fields : List Field) (answers : List (Except LayoutError Addr)) : Prop where
  refused : ∀ f e, (b.add f).1 = .error e ↔ b.Refusal f e
  /-- A register that is refused changes nothing, the size included. -/
  unchanged : ∀ f e, (b.add f).1 = .error e → (b.add f).2 = b
  appended : ∀ f a, (b.add f).1 = .ok a → (b.add f).2.layout = { fields := b.layout.fields.push f }
  /-- The registers are those that were accepted, in their order. -/
  registers : (accepted fields answers).map Prod.fst = b.layout.fields.toList
  /-- They take one word each, from zero on. -/
  offsets : (accepted fields answers).map (fun e => e.2.toNat) = (List.range b.layout.count).map (4 * ·)
  named : (b.layout.fields.toList.map Field.name).Nodup
  /-- The size is the least power of two that holds a word and all registers. -/
  size : IsLeast {n : Nat | n.isPowerOfTwo ∧ 4 ≤ n ∧ 4 * b.layout.count ≤ n} b.size
  /-- A plain layout, which keeps no size, comes to the same. -/
  collected : collect b.limit fields = (b.layout, answers)

theorem Settled.keeps_add (settled : b.Settled) (f : Field) :
    (∀ e, (b.add f).1 = .error e ↔ b.Refusal f e) ∧
      (∀ e, (b.add f).1 = .error e → (b.add f).2 = b) ∧
      ∀ a, (b.add f).1 = .ok a → (b.add f).2.layout = { fields := b.layout.fields.push f } := by
  have refused_iff (e : LayoutError) := b.add_refused_iff f e
  rw [settled.add_eq]
  cases added : b.layout.add b.limit f with
  | error e =>
    rw [added] at refused_iff
    refine ⟨fun reason => ?_, fun _ _ => rfl, fun _ answered => nomatch answered⟩
    rw [← refused_iff reason]
    simp
  | ok more =>
    rw [added] at refused_iff
    rcases add_eq_ok added with ⟨rfl, -⟩
    refine ⟨fun reason => ?_, fun _ answered => (nomatch answered), fun _ _ => rfl⟩
    rw [← refused_iff reason]
    simp

/-- Whatever the capacity and the registers that are added in turn: the next one is refused for its width, its
name or its end, in this order, and else lies behind the others. -/
theorem registers_are_added_in_turn (capacity : Option Addr) (fields : List Field) :
    ((new capacity).addAll fields).2.capacity = capacity ∧
      ((new capacity).addAll fields).2.Keeps fields ((new capacity).addAll fields).1 := by
  have fresh := settled_new capacity
  have settled := fresh.addAll fields
  have same := (new capacity).capacity_addAll fields
  rcases fresh.accepted fields with ⟨registers, places⟩
  have collected := fresh.collect_eq fields
  have limit : ((new capacity).addAll fields).2.limit = (new capacity).limit := by
    rw [Builder.limit, same]
    rfl
  rw [show (new capacity).layout.fields.toList = [] from rfl, List.nil_append] at registers
  have length : (accepted fields ((new capacity).addAll fields).1).length =
      ((new capacity).addAll fields).2.layout.count := by
    rw [← List.length_map Prod.fst, ← registers]
    exact Array.length_toList
  refine ⟨same, fun f => (settled.keeps_add f).1, fun f => (settled.keeps_add f).2.1,
    fun f => (settled.keeps_add f).2.2, registers.symm, ?_, settled.sound.named, ?_, ?_⟩
  · calc (accepted fields ((new capacity).addAll fields).1).map (fun e => e.2.toNat)
        = ((accepted fields ((new capacity).addAll fields).1).map Prod.snd).map BitVec.toNat := by
          rw [List.map_map]
          rfl
      _ = ((List.range ((new capacity).addAll fields).2.layout.count).map offset).map BitVec.toNat := by
          rw [places, length, List.range_eq_range']
          rfl
      _ = (List.range ((new capacity).addAll fields).2.layout.count).map (4 * ·) :=
          settled.sound.toNat_offsets
  · rw [settled.size]
    exact ((new capacity).addAll fields).2.layout.isLeast_size
  · rw [limit]
    exact collected

/-- Three registers in eight bytes: the second of one name, a wide one and the third of two words are
refused. -/
example :
    ((new (some 8)).addAll [⟨"a", 8, .readWrite⟩, ⟨"a", 8, .readWrite⟩, ⟨"a", 33, .readWrite⟩, ⟨"b", 1, .readOnly⟩,
        ⟨"c", 8, .readWrite⟩]).1 =
      [.ok 0, .error (.duplicate "a"), .error (.badWidth "a" 33), .ok 4, .error (.full "c" 8)] := by
  decide +kernel

end Builder

end Layout

end InstrumentBus
