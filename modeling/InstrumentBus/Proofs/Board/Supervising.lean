import InstrumentBus.Proofs.Board.Timeouts

/-!
# Drivers of the supervisor on a board

Each access of the supervisor to a region is a step of its board and a transaction of the region's block. So an
operation of a driver leads from one condition on the board to another (`Supervises`), and it is enough to know
what a step and the transactions of its registers do (`Supervises.meets_get`, `Supervises.meets_set`).
-/

namespace InstrumentBus.Board

open InstrumentBus.Action (Meets)

variable {c : Config} {v : View} {P Q : Board → Prop}

/-- A view of the supervisor on a reachable board that meets a condition. -/
structure Supervises (c : Config) (P : Board → Prop) (v : View) : Prop where
  side : v.side = .supervisor
  reach : Reachable c v.board
  holds : P v.board

namespace Supervises

theorem mono (supervises : Supervises c P v) (weaker : P v.board → Q v.board) : Supervises c Q v :=
  ⟨supervises.side, supervises.reach, weaker supervises.holds⟩

theorem fronts (c : Config) (P : Board → Prop) : Fronts c View.board (Supervises c P) :=
  fronts_view fun _ supervises => ⟨supervises.side, supervises.reach⟩

/-- What an operation does on the boards that meet a condition. -/
theorem meets_of_perform {α : Type} {a : Action View α} {Q : α → Board → Prop}
    (performs : ∀ b, Reachable c b → P b → ∃ x after,
      a.perform (View.mk .supervisor b) = (.ok x, View.mk .supervisor after) ∧ Reachable c after ∧ Q x after) :
    Meets (Supervises c P) a (fun x => Supervises c (Q x)) fun _ _ => False := by
  apply Meets.of_perform
  rintro ⟨side, b⟩ ⟨supervised, reach, holds⟩
  obtain rfl : side = .supervisor := supervised
  obtain ⟨x, after, outcome, reached, left⟩ := performs b reach holds
  exact .inl ⟨x, _, outcome, rfl, reached, left⟩

/-- A write inside a region is a step of the board and a write of the region's block. -/
theorem writeWord (supervises : Supervises c P v) {region : AddressMap.Region Block}
    (present : region ∈ (v.board.map .supervisor).regions) {addr : Addr} (inside : addr ∈ region)
    (aligned : addr.Aligned) (w : Word)
    (next : ∀ b, Reachable c b → P b →
      Q (b.tick.supervisorTransact region.owner (.writeWord (region.offsetOf addr) w)).2) :
    ∃ after, Transport.writeWord v addr w = (.ok (), after) ∧ Supervises c Q after := by
  obtain ⟨side, b⟩ := v
  obtain ⟨supervised, reach, holds⟩ := supervises
  obtain rfl : side = .supervisor := supervised
  have base : addr.wordBase = addr := Addr.wordBase_of_aligned aligned
  let op : Op := .writeWord addr w
  obtain ⟨answered, result, outcome⟩ :=
    Reachable.perform_of_mem reach op present (base.symm ▸ inside) fun _ => aligned
  obtain rfl := Option.some.inj result
  refine ⟨_, View.writeWord_of_perform outcome, rfl, Reachable.of_perform reach outcome, ?_⟩
  have left := next b reach holds
  rw [← base] at left
  exact left

section Registers

variable {region : AddressMap.Region Block} {layout : Layout} {i : Nat} {f : Field}

theorem writeWord_register (supervises : Supervises c P v)
    (here : AddressMap.HoldsRegister (v.board.map .supervisor) region layout i f) (w : Word)
    (next : ∀ b, Reachable c b → P b →
      Q (b.tick.supervisorTransact region.owner (.writeWord (Layout.offset i) w)).2) :
    ∃ after, Transport.writeWord v (region.origin + Layout.offset i) w = (.ok (), after) ∧
      Supervises c Q after := by
  obtain ⟨side, b⟩ := v
  obtain ⟨supervised, reach, holds⟩ := supervises
  obtain rfl : side = .supervisor := supervised
  obtain ⟨answered, result, outcome⟩ := Reachable.perform_register reach here (.writeWord _ w) rfl
  obtain rfl := Option.some.inj result
  exact ⟨_, View.writeWord_of_perform outcome, rfl, Reachable.of_perform reach outcome, next b reach holds⟩

variable (here : ∀ {b : Board}, Reachable c b → AddressMap.HoldsRegister (b.map .supervisor) region layout i f)
include here

/-- A driver's `get` is a step of the board and a read of the register. -/
theorem meets_get {Q : Word → Board → Prop}
    (next : ∀ b, Reachable c b → P b →
      Q ((b.tick.supervisorTransact region.owner (.read (Layout.offset i))).1.data &&& widthMask f.width)
        (b.tick.supervisorTransact region.owner (.read (Layout.offset i))).2) :
    Meets (Supervises c P) (refOf region i f).get (fun w => Supervises c (Q w)) fun _ _ => False := by
  refine meets_of_perform fun b reach holds => ?_
  obtain ⟨answered, result, outcome⟩ := reach.perform_register (here reach) (.readWord _) rfl
  obtain rfl := Option.some.inj result
  exact ⟨_, _, RegisterRef.perform_get_of_readWord (View.readWord_of_perform outcome),
    reach.of_perform outcome, next b reach holds⟩

/-- A driver's `set` is a step of the board and a write of the register. -/
theorem meets_set (writable : f.access = .readWrite) (w : Word)
    (next : ∀ b, Reachable c b → P b → Q (b.tick.supervisorTransact region.owner
      (.writeWord (Layout.offset i) (w &&& widthMask f.width))).2) :
    Meets (Supervises c P) ((refOf region i f).set w) (fun _ => Supervises c Q) fun _ _ => False := by
  refine .of_perform fun v supervises => ?_
  obtain ⟨after, written, left⟩ := supervises.writeWord_register (here supervises.reach) _ next
  exact .inl ⟨(), after, RegisterRef.perform_set_of_granted (checkWritable_refOf writable) written, left⟩

end Registers

/-- A driver's read of a selection is a step of the board and gives the owner. -/
theorem meets_owner {d : Shared} {arbiter : Arbiter} (guards : Guards c d arbiter)
    (ticks : ∀ b, Reachable c b → P b → P b.tick) :
    Meets (Supervises c P) arbiter.owner (fun owner => Supervises c fun b => P b ∧ b.owner d = owner)
      fun _ _ => False := by
  refine meets_of_perform fun b reach holds => ?_
  obtain ⟨w, read, owned⟩ := guards.readWord reach
  exact ⟨_, b.tick, Arbiter.perform_owner_of_readWord read, .step .tick reach, ticks b reach holds,
    (owner_tick b d).trans owned.symm⟩

end Supervises

end InstrumentBus.Board
