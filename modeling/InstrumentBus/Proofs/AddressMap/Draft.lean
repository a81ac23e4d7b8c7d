import InstrumentBus.AddressMap
import InstrumentBus.Proofs.Word.Window

/-!
# Which regions a draft takes

A draft takes a region exactly if it can stand beside the regions taken before (`add_cases`), so the
regions of a draft always keep the rules of `Window.Arranged`. Since those do not depend on an order,
several regions can be added in one order if they can be added in any (`addAll_eq_ok_iff`), and the map
that is built from them is the same (`build_eq_of_perm`).
-/

namespace InstrumentBus.AddressMap

variable {α : Type}

/-! ## Regions as windows -/

/-- The window of a region. -/
def Region.window (r : Region α) : Window :=
  { origin := r.origin, size := r.size }

/-- Regions that can stand side by side in one map. -/
def Arranged (regions : List (Region α)) : Prop :=
  Window.Arranged (regions.map fun r => (r.name, r.window))

/-- Regions of permitted shape are found not to overlap if they share no place. -/
theorem Region.overlaps_eq_false_iff {r s : Region α} (left : r.window.Placed)
    (right : s.window.Placed) :
    r.overlaps s = false ↔ Disjoint r.window.span s.window.span :=
  Window.disjoint_iff left right

namespace Arranged

variable {regions : List (Region α)} {r s : Region α}

theorem placed (arranged : Arranged regions) (present : r ∈ regions) : r.window.Placed :=
  Window.Arranged.placed arranged (r.name, r.window) (List.mem_map.2 ⟨r, present, rfl⟩)

theorem named (arranged : Arranged regions) : (regions.map Region.name).Nodup := by
  have names := Window.Arranged.named arranged
  rwa [List.map_map] at names

theorem apart (arranged : Arranged regions) :
    regions.Pairwise fun r s => Disjoint r.window.span s.window.span := by
  have windows := Window.Arranged.apart arranged
  rwa [List.pairwise_map] at windows

theorem perm (arranged : Arranged regions) {others : List (Region α)}
    (same : regions.Perm others) : Arranged others :=
  Window.Arranged.perm arranged (same.map _)

theorem sublist (arranged : Arranged regions) {part : List (Region α)}
    (sub : part.Sublist regions) : Arranged part :=
  Window.Arranged.sublist arranged (sub.map _)

/-- A place belongs to one region. -/
theorem eq_of_mem_span (arranged : Arranged regions) (inR : r ∈ regions) (inS : s ∈ regions)
    {place : Nat} (left : place ∈ r.window.span) (right : place ∈ s.window.span) : r = s := by
  by_contra different
  have symmetric : Std.Symm fun r s : Region α => Disjoint r.window.span s.window.span :=
    ⟨fun _ _ disjoint => disjoint.symm⟩
  exact Set.disjoint_left.1 (arranged.apart.forall inR inS different) left right

end Arranged

/-! ## Adding regions -/

namespace Draft

/-- What a region has to bring to join the regions of a draft. -/
structure Admits (d : Draft α) (r : Region α) : Prop where
  fresh : ∀ s ∈ d.regions, s.name ≠ r.name
  placed : r.window.Placed
  apart : ∀ s ∈ d.regions, Disjoint s.window.span r.window.span

theorem arranged_empty : Arranged (empty : Draft α).regions :=
  Window.Arranged.nil

variable {d : Draft α}

theorem arranged_concat_iff {r : Region α} :
    Arranged (d.regions ++ [r]) ↔ Arranged d.regions ∧ d.Admits r := by
  unfold Arranged
  rw [List.map_append, List.map_singleton, Window.arranged_concat]
  simp only [List.forall_mem_map]
  exact and_congr_right fun _ => ⟨fun ⟨fresh, placed, apart⟩ => ⟨fresh, placed, apart⟩,
    fun ⟨fresh, placed, apart⟩ => ⟨fresh, placed, apart⟩⟩

/-- A draft appends a region that it admits, and refuses any other. -/
theorem add_cases (arranged : Arranged d.regions) (r : Region α) :
    (d.Admits r ∧ d.add r = .ok { regions := d.regions ++ [r] }) ∨
    (¬d.Admits r ∧ ∃ e, d.add r = .error e) := by
  unfold add
  split
  · next taken =>
    obtain ⟨s, present, sameName⟩ := List.any_eq_true.1 taken
    exact .inr ⟨fun admits => admits.fresh s present (eq_of_beq sameName), _, rfl⟩
  · next free =>
    split
    · next badSize =>
      exact .inr ⟨fun admits => badSize (Window.placed_iff.1 admits.placed).1, _, rfl⟩
    · next goodSize =>
      split
      · next skewed =>
        exact .inr ⟨fun admits => skewed (Window.placed_iff.1 admits.placed).2, _, rfl⟩
      · next straight =>
        have placed : r.window.Placed :=
          Window.placed_iff.2 ⟨not_not.1 goodSize, not_not.1 straight⟩
        split
        · next other clash =>
          have present := List.mem_of_find?_eq_some clash
          have overlap := List.find?_some clash
          refine .inr ⟨fun admits => ?_, _, rfl⟩
          rw [(Region.overlaps_eq_false_iff (arranged.placed present) placed).2
            (admits.apart other present)] at overlap
          cases overlap
        · next clear =>
          refine .inl ⟨⟨fun s present sameName => ?_, placed, fun s present => ?_⟩, rfl⟩
          · exact free (List.any_eq_true.2 ⟨s, present, beq_of_eq sameName⟩)
          · rw [← Region.overlaps_eq_false_iff (arranged.placed present) placed]
            simpa using List.find?_eq_none.1 clear s present

/-- Regions can be added in turn if they can stand side by side with those of the draft, and they are
appended then. -/
theorem addAll_eq_ok_iff {rs : List (Region α)} (arranged : Arranged d.regions) {e : Draft α} :
    d.addAll rs = .ok e ↔ Arranged (d.regions ++ rs) ∧ e = { regions := d.regions ++ rs } := by
  induction rs generalizing d with
  | nil =>
    rw [List.append_nil, addAll, Except.ok.injEq]
    exact ⟨fun same => ⟨arranged, same.symm⟩, fun ⟨_, same⟩ => same.symm⟩
  | cons r rest ih =>
    have split : d.regions ++ r :: rest = (d.regions ++ [r]) ++ rest := by simp
    rcases add_cases arranged r with ⟨admits, added⟩ | ⟨refused, error, failed⟩
    · have more : Arranged (d.regions ++ [r]) := arranged_concat_iff.2 ⟨arranged, admits⟩
      rw [addAll, added, split]
      exact ih more
    · rw [addAll, failed, split]
      constructor
      · intro added
        cases added
      · rintro ⟨all, -⟩
        have first : Arranged (d.regions ++ [r]) := all.sublist (List.sublist_append_left _ _)
        exact (refused (arranged_concat_iff.1 first).2).elim

/-! ## Sessions with refusals -/

/-- The last region of a session is added to the draft that the session had made. -/
theorem collect_concat (d : Draft α) (rs : List (Region α)) (r : Region α) :
    d.collect (rs ++ [r]) =
      match (d.collect rs).1.add r with
      | .ok e => (e, (d.collect rs).2 ++ [.ok ()])
      | .error e => ((d.collect rs).1, (d.collect rs).2 ++ [.error e]) := by
  induction rs generalizing d with
  | nil =>
    rw [List.nil_append, collect, collect]
    cases d.add r <;> rfl
  | cons first rest ih =>
    rw [List.cons_append, collect, collect]
    cases d.add first with
    | ok e =>
      dsimp only
      rw [ih e, Prod.map_fst, id_eq]
      cases (e.collect rest).1.add r <;> rfl
    | error e =>
      dsimp only
      rw [ih d, Prod.map_fst, id_eq]
      cases (d.collect rest).1.add r <;> rfl

/-- A session leaves the regions of its draft side by side. -/
theorem arranged_collect (arranged : Arranged d.regions) (rs : List (Region α)) :
    Arranged (d.collect rs).1.regions := by
  induction rs generalizing d with
  | nil => exact arranged
  | cons r rest ih =>
    rw [collect]
    rcases add_cases arranged r with ⟨admits, added⟩ | ⟨-, error, failed⟩
    · rw [added]
      exact ih (arranged_concat_iff.2 ⟨arranged, admits⟩)
    · rw [failed]
      exact ih arranged

/-- A session takes no region that was not offered. -/
theorem mem_of_mem_collect (arranged : Arranged d.regions) {rs : List (Region α)} {r : Region α}
    (taken : r ∈ (d.collect rs).1.regions) : r ∈ d.regions ∨ r ∈ rs := by
  induction rs generalizing d with
  | nil => exact .inl taken
  | cons first rest ih =>
    rw [collect] at taken
    rcases add_cases arranged first with ⟨admits, added⟩ | ⟨-, error, failed⟩
    · rw [added] at taken
      rcases ih (arranged_concat_iff.2 ⟨arranged, admits⟩) taken with early | later
      · rcases List.mem_append.1 early with early | here
        · exact .inl early
        · exact .inr (List.mem_singleton.1 here ▸ List.mem_cons_self)
      · exact .inr (List.mem_cons_of_mem _ later)
    · rw [failed] at taken
      exact (ih arranged taken).imp_right (List.mem_cons_of_mem _)

/-- A session without refusals adds its regions in turn. -/
theorem collect_without_refusal {rs : List (Region α)}
    (agreed : ∀ outcome ∈ (d.collect rs).2, outcome = .ok ()) :
    d.addAll rs = .ok (d.collect rs).1 := by
  induction rs generalizing d with
  | nil => rfl
  | cons r rest ih =>
    rw [collect] at agreed ⊢
    rw [addAll]
    cases outcome : d.add r with
    | ok e =>
      rw [outcome] at agreed
      exact ih fun o inRest => agreed o (List.mem_cons_of_mem _ inRest)
    | error e =>
      rw [outcome] at agreed
      cases agreed (.error e) List.mem_cons_self

/-- Regions that can be added in turn make a session without refusals. -/
theorem collect_of_addAll {rs : List (Region α)} {e : Draft α} (added : d.addAll rs = .ok e) :
    (∀ outcome ∈ (d.collect rs).2, outcome = .ok ()) ∧ (d.collect rs).1 = e := by
  induction rs generalizing d with
  | nil =>
    cases added
    exact ⟨fun _ none => absurd none List.not_mem_nil, rfl⟩
  | cons r rest ih =>
    rw [addAll] at added
    rw [collect]
    cases outcome : d.add r with
    | ok next =>
      rw [outcome] at added
      obtain ⟨agreed, result⟩ := ih added
      refine ⟨fun o present => ?_, result⟩
      rcases List.mem_cons.1 present with first | later
      · exact first
      · exact agreed o later
    | error e =>
      rw [outcome] at added
      cases added

/-! ## Building -/

theorem perm_build (d : Draft α) : d.build.regions.Perm d.regions :=
  List.mergeSort_perm _ _

/-- The regions of a map come in the order of their origins. -/
theorem build_sorted (arranged : Arranged d.regions) :
    d.build.regions.Pairwise fun r s => r.origin < s.origin := by
  have sorted : d.build.regions.Pairwise fun r s => decide (r.origin ≤ s.origin) = true := by
    apply List.pairwise_mergeSort
    · intro r s t first second
      rw [decide_eq_true_eq] at first second ⊢
      exact BitVec.le_trans first second
    · intro r s
      simpa using BitVec.le_total r.origin s.origin
  have arrangedMap : Arranged d.build.regions := arranged.perm (perm_build d).symm
  refine (sorted.and arrangedMap.apart).imp_of_mem fun {r s} inR inS ⟨le, disjoint⟩ => ?_
  -- One origin would be a place that both regions share.
  refine Nat.lt_of_le_of_ne (of_decide_eq_true le) fun sameOrigin => ?_
  have inOther : s.origin.toNat ∈ s.window.span := (arrangedMap.placed inS).origin_mem_span
  rw [← sameOrigin] at inOther
  exact Set.disjoint_left.1 disjoint (arrangedMap.placed inR).origin_mem_span inOther

/-- Drafts with the same regions build the same map. -/
theorem build_eq_of_perm {e : Draft α} (arranged : Arranged d.regions)
    (same : d.regions.Perm e.regions) : d.build = e.build := by
  have left := build_sorted arranged
  have right := build_sorted (arranged.perm same)
  have permBuilt : d.build.regions.Perm e.build.regions :=
    (perm_build d).trans (same.trans (perm_build e).symm)
  have equal : d.build.regions = e.build.regions :=
    permBuilt.eq_of_pairwise (fun r s _ _ before after =>
      absurd after (BitVec.lt_asymm before)) left right
  exact congrArg AddressMap.mk equal

end Draft

end InstrumentBus.AddressMap
