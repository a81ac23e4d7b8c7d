import InstrumentBus.Proofs.Word.Window
import InstrumentBus.Proofs.Board.Acquiring

/-!
# Which acquisitions are granted

The only proof that an acquisition succeeded is what the selection reads afterwards, and the selection is a
narrow register that connects the first master where it names none. An index still reads back as itself
exactly where it names a master (`Shared.connectedBy_eq_iff`), so `acquired_iff_present` can say which
acquisitions are granted, whom a refusal names, and how long a grant stays current: no event but a write to
the selection moves the owner (`Reachable.owner_run`).
-/

namespace InstrumentBus.Board

variable {c : Config} {b : Board} {d : Shared}

/-! ## Between two selections -/

/-- Which events select does not depend on when they happen, since no event redraws the maps. -/
theorem Event.selects_step_iff {e : Event} (earlier : Event) :
    e.Selects (b.step earlier) d ↔ e.Selects b d := by
  unfold Event.Selects
  rw [step_map]

/-- The owner of a device stays while nobody writes to the selection in front of it. -/
theorem Reachable.owner_run (reach : Reachable c b) {events : List Event}
    (unselected : ∀ e ∈ events, ¬e.Selects b d) : (b.run events).owner d = b.owner d := by
  induction events generalizing b with
  | nil => rfl
  | cons e rest ih =>
    obtain ⟨first, later⟩ := List.forall_mem_cons.1 unselected
    have stays : (b.step e).owner d = b.owner d := by
      by_contra moved
      exact first (reach.step_selects moved)
    have still : ∀ f ∈ rest, ¬f.Selects (b.step e) d := fun f listed selects =>
      later f listed ((Event.selects_step_iff e).1 selects)
    exact (ih (.step e reach) still).trans stays

/-! ## Grants -/

/-- A grant is current while its master owns the device. -/
theorem Guards.perform_isCurrent {g : Grant} (guards : Guards c d g.arbiter) (reach : Reachable c b) :
    g.isCurrent.perform (.connect (View.mk .supervisor b)) =
      (.ok (b.owner d == g.master), .connect (View.mk .supervisor b.tick)) := by
  obtain ⟨w, read, owned⟩ := guards.readWord reach
  have owner := Arbiter.perform_owner_of_readWord read
  rw [owned] at owner
  have active : g.arbiter.active.perform (.connect (View.mk .supervisor b)) =
      (.ok (b.owner d), .connect (View.mk .supervisor b.tick)) := by
    rw [Arbiter.active, Link.perform_locked, owner]
    rfl
  exact Action.perform_bind_of_ok active _

/-- The grant of the owner is current until somebody writes to the selection in front of the device. -/
theorem Guards.isCurrent_of_unselected {g : Grant} (guards : Guards c d g.arbiter) (reach : Reachable c b)
    (owned : b.owner d = g.master) {events : List Event} (unselected : ∀ e ∈ events, ¬e.Selects b d) :
    ∃ last, g.isCurrent.perform (.connect (View.mk .supervisor (b.run events))) =
      (.ok true, .connect (View.mk .supervisor last)) := by
  have asks := guards.perform_isCurrent (reach.run events)
  rw [reach.owner_run unselected, owned, beq_self_eq_true] at asks
  exact ⟨_, asks⟩

/-- What an index connects is the master of that index exactly where there is one. -/
theorem Shared.connectedBy_eq_iff (d : Shared) (master : Nat) :
    d.connectedBy master = master ↔ master < d.masters.size :=
  ⟨fun same => same ▸ d.connectedBy_lt master, d.connectedBy_of_lt⟩

/-- An index that takes more than a word is refused before any access. -/
theorem perform_acquire_of_wide (arbiter : Arbiter) {master : Nat} (wide : 2 ^ 32 ≤ master) (v : View) :
    (arbiter.acquire master).perform (.connect v) =
      (.error (.outOfRange s!"master {master}"), .connect v) := by
  rw [Arbiter.acquire, Link.perform_locked, Arbiter.connect, if_pos wide]
  rfl

/-- An acquisition is granted exactly if the device has the master. The device is connected to this master
then, and the grant is current, whatever happens, until somebody writes to the selection in front of the
device again. A refusal names the owner, unless the index is too wide for the selection to be asked. The
other devices keep their owners. -/
theorem acquired_iff_present (reach : Reachable c b) (d : Shared) (id : Nat) :
    ∃ arbiter, Arbiter.ofManifest id (b.manifest .supervisor) d.name = .ok arbiter ∧
      ∀ master, ∃ (r : Except DriverError Grant) (after : Board),
        (arbiter.acquire master).perform (.connect (View.mk .supervisor b)) =
          (r, .connect (View.mk .supervisor after)) ∧
        Reachable c after ∧
        ((∃ g, r = .ok g) ↔ master < d.masters.size) ∧
        (∀ g, r = .ok g → g.arbiter = arbiter ∧ g.master = master ∧ after.owner d = master ∧
          ∀ events, (∀ e ∈ events, ¬e.Selects after d) → ∃ last,
            g.isCurrent.perform (.connect (View.mk .supervisor (after.run events))) =
              (.ok true, .connect (View.mk .supervisor last))) ∧
        (∀ e, r = .error e → (e = .outOfRange s!"master {master}" ∧ 2 ^ 32 ≤ master) ∨
          (e = .notOwner d.name (after.owner d) master ∧ after.owner d ≠ master)) ∧
        ∀ other, other ≠ d → after.owner other = b.owner other := by
  refine ⟨d.arbiter id, reach.ofManifest_shared d id, fun master => ?_⟩
  by_cases wide : 2 ^ 32 ≤ master
  · have few := d.size_masters_le
    refine ⟨_, b, perform_acquire_of_wide _ wide _, reach, ?_, ?_, ?_, fun _ _ => rfl⟩
    · exact iff_of_false (fun ⟨g, granted⟩ => by cases granted) (by omega)
    · intro g granted
      cases granted
    · intro e refused
      cases refused
      exact .inl ⟨rfl, wide⟩
  · obtain ⟨after, acquires, current, connected, others⟩ :=
      reach.perform_acquire d id (Nat.lt_of_not_le wide)
    refine ⟨_, after, acquires, current, ?_, ?_, ?_, others⟩
    · rw [← d.connectedBy_eq_iff]
      split
      · next same => exact iff_of_true ⟨_, rfl⟩ same
      · next another => exact iff_of_false (fun ⟨g, granted⟩ => by cases granted) another
    · intro g granted
      split at granted
      · next same =>
        cases granted
        have owned : after.owner d = master := connected.trans same
        exact ⟨rfl, rfl, owned, fun _ unselected =>
          Guards.isCurrent_of_unselected (guards_selection c d id d.name) current owned unselected⟩
      · cases granted
    · intro e refused
      split at refused
      · cases refused
      · next another =>
        cases refused
        rw [connected]
        exact .inr ⟨rfl, another⟩

/-- On the usual board the player is granted the DAC, and the grant stays current while the ADC is handed to the
co-processor. The index `2 ^ 32 + 1`, whose low bits name the co-processor, is not granted. -/
theorem player_is_granted_dac : ∃ b after last arbiter, assemble .standard = .ok b ∧
    Arbiter.ofManifest 0 (b.manifest .supervisor) "dac0" = .ok arbiter ∧
    (arbiter.acquire dacPlayerMaster).perform (.connect (View.mk .supervisor b)) =
      (.ok ⟨arbiter, dacPlayerMaster⟩, .connect (View.mk .supervisor after)) ∧
    (Grant.isCurrent ⟨arbiter, dacPlayerMaster⟩).perform (.connect (View.mk .supervisor
      (after.run [.tick, .access .supervisor (.writeWord 0x2204 1)]))) =
        (.ok true, .connect (View.mk .supervisor last)) ∧
    ¬∃ g l, (arbiter.acquire (2 ^ 32 + 1)).perform (.connect (View.mk .supervisor b)) = (.ok g, l) := by
  obtain ⟨b, assembled⟩ := assemble_standard
  obtain ⟨arbiter, named, acquires⟩ := acquired_iff_present (.assembled assembled) .dac0 0
  obtain ⟨r, after, granted, current, present, grants, -⟩ := acquires dacPlayerMaster
  obtain ⟨⟨issuer, master⟩, rfl⟩ := present.2 (by decide)
  obtain ⟨rfl, rfl, -, stays⟩ := grants _ rfl
  have elsewhere : ∀ region ∈ supervisorRegions .standard,
      region.name = Shared.dac0.name ++ "_pi" → Addr.wordBase 0x2204 ≠ region.origin := by decide
  obtain ⟨last, asks⟩ := stays [.tick, .access .supervisor (.writeWord 0x2204 1)] (by
    simp only [List.forall_mem_cons, List.not_mem_nil, false_imp_iff, implies_true, and_true]
    constructor
    · rintro ⟨op, ⟨⟩, -⟩
    · rintro ⟨op, ⟨⟩, -, -, region, listed, name, place⟩
      exact elsewhere region (current.mem_map.1 listed) name place)
  refine ⟨b, after, last, issuer, assembled, named, granted, asks, ?_⟩
  rintro ⟨g, l, granted⟩
  obtain ⟨r, after, refused, -, absent, -⟩ := acquires (2 ^ 32 + 1)
  obtain ⟨rfl, -⟩ := Prod.mk.inj (granted.symm.trans refused)
  exact absurd (absent.1 ⟨g, rfl⟩) (by decide)

end InstrumentBus.Board
