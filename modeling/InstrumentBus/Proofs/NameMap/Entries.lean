import InstrumentBus.NameMap
import Mathlib.Data.List.Nodup

/-!
# The entries of a map keyed by name

A map made of entries with distinct names holds just those entries (`perm_entries_ofList`), so it does
not depend on their order (`ofList_eq_of_perm`), and a look-up finds an entry just if it is there
(`find?_eq_some_iff`).
-/

namespace InstrumentBus.NameMap

variable {α : Type} {m n : NameMap α} {name : String} {a : α}

theorem ext_entries (same : m.entries = n.entries) : m = n := by
  cases m
  cases n
  cases same
  rfl

theorem nodup_names (m : NameMap α) : (m.entries.map Prod.fst).Nodup := by
  rw [List.Nodup, List.pairwise_map]
  refine m.sorted.imp fun {a b} less same => ?_
  rw [same] at less
  exact String.lt_irrefl b.1 less

/-- Maps with the same entries in any order are equal, since the names fix the order. -/
theorem eq_of_perm (same : m.entries.Perm n.entries) : m = n :=
  ext_entries (same.eq_of_pairwise
    (fun _ _ _ _ before after => absurd (String.lt_trans before after) (String.lt_irrefl _))
    m.sorted n.sorted)

/-! ## Maps of lists -/

theorem perm_insertEntry {l : List (String × α)} (fresh : name ∉ l.map Prod.fst) :
    (insertEntry name a l).Perm ((name, a) :: l) := by
  induction l with
  | nil => exact .refl _
  | cons head rest ih =>
    obtain ⟨key, b⟩ := head
    rw [List.map_cons, List.mem_cons, not_or] at fresh
    obtain ⟨other, freshRest⟩ := fresh
    rw [insertEntry, if_neg other]
    split
    · exact .refl _
    · exact ((ih freshRest).cons (key, b)).trans (.swap _ _ _)

theorem perm_entries_foldl {l : List (String × α)}
    (named : (m.entries.map Prod.fst ++ l.map Prod.fst).Nodup) :
    (l.foldl (fun m e => m.insert e.1 e.2) m).entries.Perm (m.entries ++ l) := by
  induction l generalizing m with
  | nil => rw [List.append_nil]; exact .refl _
  | cons e rest ih =>
    have middle : (m.entries.map Prod.fst ++ (e :: rest).map Prod.fst).Perm
        (((e.1, e.2) :: m.entries).map Prod.fst ++ rest.map Prod.fst) := by
      rw [List.map_cons, List.map_cons, List.cons_append]
      exact List.perm_middle
    have distinct := middle.nodup_iff.1 named
    have fresh : e.1 ∉ m.entries.map Prod.fst := fun taken =>
      (List.nodup_cons.1 distinct).1 (List.mem_append_left _ taken)
    have inserted : (m.insert e.1 e.2).entries.Perm ((e.1, e.2) :: m.entries) :=
      perm_insertEntry fresh
    have distinctNext : ((m.insert e.1 e.2).entries.map Prod.fst ++ rest.map Prod.fst).Nodup :=
      ((inserted.map Prod.fst).append_right _).nodup_iff.2 distinct
    exact (ih distinctNext).trans ((inserted.append_right _).trans List.perm_middle.symm)

/-- A map of entries with distinct names holds each of them. -/
theorem perm_entries_ofList {l : List (String × α)} (named : (l.map Prod.fst).Nodup) :
    (ofList l).entries.Perm l :=
  perm_entries_foldl named

theorem ofList_eq_of_perm {k l : List (String × α)} (named : (l.map Prod.fst).Nodup)
    (same : k.Perm l) : ofList k = ofList l := by
  have namedK : (k.map Prod.fst).Nodup := (same.map _).nodup_iff.2 named
  exact eq_of_perm ((perm_entries_ofList namedK).trans (same.trans (perm_entries_ofList named).symm))

/-- A map is the map of its entries. -/
theorem ofList_entries (m : NameMap α) : ofList m.entries = m :=
  eq_of_perm (perm_entries_ofList m.nodup_names)

/-! ## Look-up -/

theorem mem_of_entries_find? {l : List (String × α)} {e : String × α}
    (found : l.find? (·.1 == name) = some e) : e ∈ l ∧ e.1 = name := by
  have sameName := List.find?_some found
  exact ⟨List.mem_of_find?_eq_some found, eq_of_beq sameName⟩

theorem find?_eq_some_iff : m.find? name = some a ↔ (name, a) ∈ m.entries := by
  rw [find?, Option.map_eq_some_iff]
  constructor
  · rintro ⟨e, found, rfl⟩
    obtain ⟨present, rfl⟩ := mem_of_entries_find? found
    exact present
  · intro present
    cases found : m.entries.find? (·.1 == name) with
    | none => simpa using List.find?_eq_none.1 found (name, a) present
    | some e =>
      obtain ⟨presentE, sameName⟩ := mem_of_entries_find? found
      have same : e = (name, a) :=
        List.inj_on_of_nodup_map m.nodup_names presentE present sameName
      exact ⟨e, rfl, congrArg Prod.snd same⟩

/-- An entry of a list with distinct names is found in the map of the list. -/
theorem find?_ofList {l : List (String × α)} (named : (l.map Prod.fst).Nodup)
    (present : (name, a) ∈ l) : (ofList l).find? name = some a :=
  find?_eq_some_iff.2 ((perm_entries_ofList named).mem_iff.2 present)

end InstrumentBus.NameMap
