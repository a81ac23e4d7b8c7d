import Mathlib.Data.List.Nodup
import Mathlib.Data.List.Pairwise
import Mathlib.Order.CompletePartialOrder
import Mathlib.Order.Interval.Set.Disjoint
import InstrumentBus.Proofs.Word.PowerOfTwo

/-!
# Windows of the address space

A region of an address map and a region of a manifest are windows with a name, and both are held to
the rules of `Arranged`: names are distinct, every window is a power of two long and starts at a
multiple of its length, and no two windows share a place. The rules do not depend on the order of the
windows (`Arranged.perm`). `Placed.agree_iff` justifies the comparison of high bits by which an address
is decoded, and `Placed.toNat_offset` the mask by which its offset is found.
-/

namespace InstrumentBus

/-- A stretch of the address space. -/
structure Window where
  /-- The first address. -/
  origin : Addr
  /-- The number of bytes. -/
  size : Word

namespace Window

/-- The places of the bytes of a window. They are numbers and do not wrap, so that a window may end
where the address space ends. -/
def span (w : Window) : Set Nat :=
  Set.Ico w.origin.toNat (w.origin.toNat + w.size.toNat)

/-- A window of permitted size and origin. -/
structure Placed (w : Window) : Prop where
  sized : w.size.toNat.isPowerOfTwo
  aligned : w.size.toNat ∣ w.origin.toNat

/-! ## Alignment -/

/-- Against a size that is a power of two, an origin is tested by its low bits. -/
theorem masked_eq_zero_iff {w : Window} (sized : w.size.toNat.isPowerOfTwo) :
    w.origin &&& (w.size - 1) = 0 ↔ w.size.toNat ∣ w.origin.toNat := by
  obtain ⟨k, exponent⟩ := sized
  rw [← BitVec.toNat_inj, toNat_and_sub_one w.origin exponent, exponent]
  exact Nat.dvd_iff_mod_eq_zero.symm

/-- The two tests by which a window is found to be placed. -/
theorem placed_iff {w : Window} :
    w.Placed ↔ IsPowerOfTwo w.size.toNat ∧ w.origin &&& (w.size - 1) = 0 := by
  constructor
  · rintro ⟨sized, aligned⟩
    exact ⟨isPowerOfTwo_iff.2 sized, (masked_eq_zero_iff sized).2 aligned⟩
  · rintro ⟨power, masked⟩
    have sized := isPowerOfTwo_iff.1 power
    exact ⟨sized, (masked_eq_zero_iff sized).1 masked⟩

namespace Placed

variable {w : Window} {addr : Addr}

theorem size_pos (placed : w.Placed) : 0 < w.size.toNat := by
  obtain ⟨k, exponent⟩ := placed.sized
  rw [exponent]
  exact Nat.two_pow_pos k

/-- A window does not reach past the end of the address space. -/
theorem limit_le (placed : w.Placed) : w.origin.toNat + w.size.toNat ≤ 2 ^ 32 := by
  obtain ⟨k, exponent⟩ := placed.sized
  have aligned : 2 ^ k ∣ w.origin.toNat := exponent ▸ placed.aligned
  have whole : 2 ^ k ∣ 2 ^ 32 := Nat.pow_dvd_pow 2 (Nat.le_of_lt (exponent_lt exponent))
  have room : 0 < 2 ^ 32 - w.origin.toNat := Nat.sub_pos_of_lt w.origin.isLt
  have fits : 2 ^ k ≤ 2 ^ 32 - w.origin.toNat := Nat.le_of_dvd room (Nat.dvd_sub whole aligned)
  omega

theorem origin_mem_span (placed : w.Placed) : w.origin.toNat ∈ w.span :=
  ⟨le_rfl, Nat.lt_add_of_pos_right placed.size_pos⟩

/-- An address agrees with the origin above the size's zero bits just if it lies in the window. -/
theorem agree_iff (placed : w.Placed) :
    addr.toNat >>> w.size.ctz.toNat = w.origin.toNat >>> w.size.ctz.toNat ↔
      addr.toNat ∈ w.span := by
  obtain ⟨k, exponent⟩ := placed.sized
  have positive : 0 < 2 ^ k := Nat.two_pow_pos k
  obtain ⟨q, multiple⟩ : 2 ^ k ∣ w.origin.toNat := exponent ▸ placed.aligned
  rw [toNat_ctz exponent, Nat.shiftRight_eq_div_pow, Nat.shiftRight_eq_div_pow, span, Set.mem_Ico,
    exponent, multiple, Nat.mul_div_cancel_left q positive, Nat.div_eq_iff positive]
  rw [Nat.mul_comm (2 ^ k) q]
  omega

/-- The bits of an address below the size are its distance from the origin. -/
theorem toNat_offset (placed : w.Placed) (inside : addr.toNat ∈ w.span) :
    (addr &&& (w.size - 1)).toNat = addr.toNat - w.origin.toNat := by
  obtain ⟨k, exponent⟩ := placed.sized
  obtain ⟨q, multiple⟩ : 2 ^ k ∣ w.origin.toNat := exponent ▸ placed.aligned
  obtain ⟨above, below⟩ := inside
  rw [exponent] at below
  rw [toNat_and_sub_one addr exponent]
  have split : addr.toNat = 2 ^ k * q + (addr.toNat - w.origin.toNat) := by omega
  rw [split, Nat.mul_add_mod_self_left, Nat.mod_eq_of_lt (by omega)]
  omega

end Placed

/-! ## Disjointness -/

/-- Two windows share a place if each starts before the other ends. -/
theorem disjoint_iff {v w : Window} (left : v.Placed) (right : w.Placed) :
    (decide (v.origin.toNat < w.origin.toNat + w.size.toNat) &&
        decide (w.origin.toNat < v.origin.toNat + v.size.toNat)) = false ↔
      Disjoint v.span w.span := by
  have leftPos := left.size_pos
  have rightPos := right.size_pos
  rw [span, span, Set.Ico_disjoint_Ico, Bool.eq_false_iff, ne_eq, Bool.and_eq_true,
    decide_eq_true_eq, decide_eq_true_eq]
  omega

/-! ## Arrangements -/

/-- The rules for the windows of one address space and their names. -/
structure Arranged (ws : List (String × Window)) : Prop where
  named : (ws.map Prod.fst).Nodup
  placed : ∀ w ∈ ws, w.2.Placed
  apart : ws.Pairwise fun v w => Disjoint v.2.span w.2.span

theorem Arranged.nil : Arranged [] :=
  ⟨.nil, fun _ present => absurd present List.not_mem_nil, .nil⟩

theorem Arranged.disjoint {ws : List (String × Window)} (arranged : Arranged ws)
    {v w : String × Window} (left : v ∈ ws) (right : w ∈ ws) (differ : v ≠ w) :
    Disjoint v.2.span w.2.span := by
  have symmetric : Std.Symm fun v w : String × Window => Disjoint v.2.span w.2.span :=
    ⟨fun _ _ disjoint => disjoint.symm⟩
  exact arranged.apart.forall left right differ

/-- One more window keeps the rules if it has a name of its own, is placed and shares no place. -/
theorem arranged_concat {ws : List (String × Window)} {w : String × Window} :
    Arranged (ws ++ [w]) ↔
      Arranged ws ∧ (∀ v ∈ ws, v.1 ≠ w.1) ∧ w.2.Placed ∧
        ∀ v ∈ ws, Disjoint v.2.span w.2.span := by
  have namedLast : ((ws ++ [w]).map Prod.fst).Nodup ↔
      (ws.map Prod.fst).Nodup ∧ ∀ v ∈ ws, v.1 ≠ w.1 := by
    rw [List.map_append, List.map_singleton, List.nodup_append]
    simp
  have apartLast : (ws ++ [w]).Pairwise (fun v w => Disjoint v.2.span w.2.span) ↔
      ws.Pairwise (fun v w => Disjoint v.2.span w.2.span) ∧
        ∀ v ∈ ws, Disjoint v.2.span w.2.span := by
    rw [List.pairwise_append]
    simp
  have placedLast : (∀ v ∈ ws ++ [w], v.2.Placed) ↔ (∀ v ∈ ws, v.2.Placed) ∧ w.2.Placed := by
    simp [or_imp, forall_and]
  constructor
  · rintro ⟨named, placed, apart⟩
    obtain ⟨named, fresh⟩ := namedLast.1 named
    obtain ⟨placed, last⟩ := placedLast.1 placed
    obtain ⟨apart, beside⟩ := apartLast.1 apart
    exact ⟨⟨named, placed, apart⟩, fresh, last, beside⟩
  · rintro ⟨⟨named, placed, apart⟩, fresh, last, beside⟩
    exact ⟨namedLast.2 ⟨named, fresh⟩, placedLast.2 ⟨placed, last⟩, apartLast.2 ⟨apart, beside⟩⟩

/-- Windows keep the rules when others are taken away. -/
theorem Arranged.sublist {vs ws : List (String × Window)} (arranged : Arranged ws)
    (part : vs.Sublist ws) : Arranged vs where
  named := arranged.named.sublist (part.map Prod.fst)
  placed w present := arranged.placed w (part.subset present)
  apart := arranged.apart.sublist part

/-- The order of the windows does not matter. -/
theorem Arranged.perm {vs ws : List (String × Window)} (arranged : Arranged vs)
    (same : vs.Perm ws) : Arranged ws where
  named := (same.map Prod.fst).nodup_iff.1 arranged.named
  placed w present := arranged.placed w (same.mem_iff.2 present)
  apart := (same.pairwise_iff fun disjoint => disjoint.symm).1 arranged.apart

end Window

end InstrumentBus
