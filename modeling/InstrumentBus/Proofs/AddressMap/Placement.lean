import InstrumentBus.Proofs.AddressMap.Decode

/-!
# Sessions of placements

A map is drawn in a session: one placement after the other is offered to a draft, which takes it or
refuses it. `accepts_and_decodes` says which placements a session takes, that the map it ends in decodes
every address to the region that holds it, and that a session without refusals may be held in any order.
-/

namespace InstrumentBus.AddressMap

variable {α : Type}

/-- What a draft is offered: memory of any size, or the registers of a list that can be laid out in
turn within a capacity. -/
inductive Placement (α : Type) where
  | memory (name : String) (origin : Addr) (size : Word) (owner : α)
  | registers (name : String) (origin : Addr) (capacity : Nat) (fields : List Field) (owner : α)

/-- The region that a placement asks for. -/
def Placement.region : Placement α → Region α
  | .memory name origin size owner => .plain name origin size owner
  | .registers name origin capacity fields owner =>
    .ofLayout name origin (Layout.collect capacity fields).1 owner

namespace Draft

/-- The draft at the end of a session, with the placements that it took. -/
def ofPlacements (ps : List (Placement α)) : Draft α :=
  (empty.collect (ps.map Placement.region)).1

/-- What became of each placement of a session. -/
def outcomes (ps : List (Placement α)) : List (Except Error Unit) :=
  (empty.collect (ps.map Placement.region)).2

theorem arranged_ofPlacements (ps : List (Placement α)) : Arranged (ofPlacements ps).regions :=
  arranged_collect arranged_empty _

/-- The regions of a session are those of placements. -/
theorem mem_ofPlacements {ps : List (Placement α)} {r : Region α}
    (taken : r ∈ (ofPlacements ps).regions) : ∃ p ∈ ps, p.region = r := by
  rcases mem_of_mem_collect arranged_empty taken with inEmpty | offered
  · cases inEmpty
  · exact List.mem_map.1 offered

/-- The last placement of a session is taken, and then its region is the last one of the draft, or it
is refused, and then it leaves no trace. -/
theorem ofPlacements_concat_cases (ps : List (Placement α)) (p : Placement α) :
    ((ofPlacements ps).Admits p.region ∧
      outcomes (ps ++ [p]) = outcomes ps ++ [.ok ()] ∧
      (ofPlacements (ps ++ [p])).regions = (ofPlacements ps).regions ++ [p.region]) ∨
    (¬(ofPlacements ps).Admits p.region ∧
      (∃ e, outcomes (ps ++ [p]) = outcomes ps ++ [.error e]) ∧
      ofPlacements (ps ++ [p]) = ofPlacements ps) := by
  have listed : ps.map Placement.region ++ [p.region] = (ps ++ [p]).map Placement.region := by
    rw [List.map_append, List.map_singleton]
  have last := collect_concat empty (ps.map Placement.region) p.region
  rw [listed] at last
  rcases add_cases (arranged_ofPlacements ps) p.region with
    ⟨admits, added⟩ | ⟨refused, error, failed⟩
  · unfold ofPlacements at added
    rw [added] at last
    have draft := congrArg Prod.fst last
    have outcome := congrArg Prod.snd last
    exact .inl ⟨admits, outcome, congrArg Draft.regions draft⟩
  · unfold ofPlacements at failed
    rw [failed] at last
    have draft := congrArg Prod.fst last
    have outcome := congrArg Prod.snd last
    exact .inr ⟨refused, ⟨error, outcome⟩, draft⟩

/-- A session without refusals can be held in any order and ends in the same map. -/
theorem build_ofPlacements_perm {ps qs : List (Placement α)} (same : qs.Perm ps)
    (agreed : ∀ outcome ∈ outcomes ps, outcome = .ok ()) :
    (∀ outcome ∈ outcomes qs, outcome = .ok ()) ∧
      (ofPlacements qs).build = (ofPlacements ps).build := by
  have regions : (qs.map Placement.region).Perm (ps.map Placement.region) := same.map _
  obtain ⟨arranged, drawn⟩ :=
    (addAll_eq_ok_iff arranged_empty).1 (collect_without_refusal agreed)
  have arrangedQs : Arranged ((empty : Draft α).regions ++ qs.map Placement.region) :=
    arranged.perm (regions.symm.append_left _)
  obtain ⟨agreedQs, drawnQs⟩ :=
    collect_of_addAll ((addAll_eq_ok_iff arranged_empty).2 ⟨arrangedQs, rfl⟩)
  refine ⟨agreedQs, build_eq_of_perm (arranged_ofPlacements qs) ?_⟩
  show (empty.collect (qs.map Placement.region)).1.regions.Perm
    (empty.collect (ps.map Placement.region)).1.regions
  rw [drawnQs, drawn]
  exact regions.append_left _

end Draft

/-- A draft takes a placement just if the name is new, the size is a power of two, the origin is a
multiple of the size and no place of the region is taken; a placement that is refused changes nothing.
The map of what it took lists those regions by rising origin and apart from each other. It decodes an
address to the one region around it, or to none, and the offset is the distance from the origin. If no
placement is refused, then none is refused in any other order, and the map is the same. -/
theorem accepts_and_decodes (ps : List (Placement α)) :
    (∀ p : Placement α,
      ((Draft.ofPlacements ps).Admits p.region ∧
        Draft.outcomes (ps ++ [p]) = Draft.outcomes ps ++ [.ok ()] ∧
        (Draft.ofPlacements (ps ++ [p])).regions =
          (Draft.ofPlacements ps).regions ++ [p.region]) ∨
      (¬(Draft.ofPlacements ps).Admits p.region ∧
        (∃ e, Draft.outcomes (ps ++ [p]) = Draft.outcomes ps ++ [.error e]) ∧
        Draft.ofPlacements (ps ++ [p]) = Draft.ofPlacements ps)) ∧
    (Draft.ofPlacements ps).build.regions.Perm (Draft.ofPlacements ps).regions ∧
    (Draft.ofPlacements ps).build.regions.Pairwise (fun r s => r.origin < s.origin) ∧
    (Draft.ofPlacements ps).build.regions.Pairwise
      (fun r s => Disjoint r.window.span s.window.span) ∧
    (∀ addr : Addr,
      (∀ r, (Draft.ofPlacements ps).build.decode? addr = some r ↔
        r ∈ (Draft.ofPlacements ps).build.regions ∧ addr.toNat ∈ r.window.span) ∧
      ((Draft.ofPlacements ps).build.decode? addr = none ↔
        ∀ r ∈ (Draft.ofPlacements ps).build.regions, addr.toNat ∉ r.window.span) ∧
      (∀ r, (Draft.ofPlacements ps).build.decode? addr = some r →
        r.offsetOf addr = addr - r.origin)) ∧
    (∀ qs : List (Placement α), qs.Perm ps →
      (∀ outcome ∈ Draft.outcomes ps, outcome = .ok ()) →
        (∀ outcome ∈ Draft.outcomes qs, outcome = .ok ()) ∧
          (Draft.ofPlacements qs).build = (Draft.ofPlacements ps).build) := by
  have arranged := Draft.arranged_ofPlacements ps
  have listed := Draft.perm_build (Draft.ofPlacements ps)
  have arrangedMap : Arranged (Draft.ofPlacements ps).build.regions := arranged.perm listed.symm
  refine ⟨Draft.ofPlacements_concat_cases ps, listed, Draft.build_sorted arranged,
    arrangedMap.apart, fun addr => ⟨fun r => decode?_eq_some_iff arrangedMap,
      decode?_eq_none_iff arrangedMap, fun r found => ?_⟩,
    fun qs same agreed => Draft.build_ofPlacements_perm same agreed⟩
  obtain ⟨present, inside⟩ := mem_of_decode?_eq_some arrangedMap found
  exact Region.offsetOf_eq_sub (arrangedMap.placed present) inside

end InstrumentBus.AddressMap
