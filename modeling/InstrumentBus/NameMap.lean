/-!
# Maps keyed by name

A `NameMap` lists its entries in the order of their names, each name once, so two maps with the same
entries are equal.
-/

namespace InstrumentBus

/-- A finite map from names, in the order of the names. -/
structure NameMap (α : Type) where
  entries : List (String × α)
  sorted : entries.Pairwise (fun a b => a.1 < b.1)

namespace NameMap

variable {α : Type}

/-- The map without entries. -/
def empty : NameMap α :=
  { entries := [], sorted := .nil }

instance : EmptyCollection (NameMap α) :=
  ⟨empty⟩

instance [DecidableEq α] : DecidableEq (NameMap α) := fun m n =>
  decidable_of_iff (m.entries = n.entries)
    ⟨fun h => by cases m; cases n; simp_all, fun h => h ▸ rfl⟩

/-- An entry put into its place, in the stead of any entry of that name. -/
def insertEntry (name : String) (a : α) : List (String × α) → List (String × α)
  | [] => [(name, a)]
  | (n, b) :: rest =>
    if name < n then (name, a) :: (n, b) :: rest
    else if name = n then (name, a) :: rest
    else (n, b) :: insertEntry name a rest

/-- An entry of the result is the new one or an old one. -/
theorem mem_of_mem_insertEntry {name : String} {a : α} {l : List (String × α)}
    {e : String × α} (h : e ∈ insertEntry name a l) : e = (name, a) ∨ e ∈ l := by
  induction l with
  | nil => simpa [insertEntry] using h
  | cons head rest ih =>
    obtain ⟨n, b⟩ := head
    simp only [insertEntry] at h
    split at h
    · simpa using h
    · split at h
      · rcases List.mem_cons.1 h with h | h
        · exact .inl h
        · exact .inr (List.mem_cons_of_mem _ h)
      · rcases List.mem_cons.1 h with h | h
        · exact .inr (h ▸ List.mem_cons_self)
        · exact (ih h).imp_right (List.mem_cons_of_mem _)

/-- Insertion keeps the order of the names. -/
theorem sorted_insertEntry (name : String) (a : α) {l : List (String × α)}
    (h : l.Pairwise (fun a b => a.1 < b.1)) :
    (insertEntry name a l).Pairwise (fun a b => a.1 < b.1) := by
  induction l with
  | nil => simp [insertEntry]
  | cons head rest ih =>
    obtain ⟨n, b⟩ := head
    obtain ⟨first, tail⟩ := List.pairwise_cons.1 h
    simp only [insertEntry]
    split
    · next lt =>
      refine List.pairwise_cons.2 ⟨fun e he => ?_, h⟩
      rcases List.mem_cons.1 he with he | he
      · simpa [he] using lt
      · exact String.lt_trans lt (first e he)
    · next not_lt =>
      split
      · next eq =>
        subst eq
        exact List.pairwise_cons.2 ⟨first, tail⟩
      · next ne =>
        refine List.pairwise_cons.2 ⟨fun e he => ?_, ih tail⟩
        rcases mem_of_mem_insertEntry he with he | he
        · have le : n ≤ name := String.not_lt.1 not_lt
          have not_le : ¬name ≤ n := fun ge => ne (String.le_antisymm ge le)
          simpa [he] using String.not_le.1 not_le
        · exact first e he

/-- The map with an entry put in, in the stead of any entry of that name. -/
def insert (m : NameMap α) (name : String) (a : α) : NameMap α :=
  { entries := insertEntry name a m.entries, sorted := sorted_insertEntry name a m.sorted }

/-- The map of a list of entries; of several with one name the last stays. -/
def ofList (l : List (String × α)) : NameMap α :=
  l.foldl (fun m e => m.insert e.1 e.2) ∅

/-- The value under a name. -/
def find? (m : NameMap α) (name : String) : Option α :=
  (m.entries.find? (·.1 == name)).map Prod.snd

/-- The names in order. -/
def names (m : NameMap α) : List String :=
  m.entries.map Prod.fst

/-- The number of entries. -/
def size (m : NameMap α) : Nat :=
  m.entries.length

end NameMap

end InstrumentBus
