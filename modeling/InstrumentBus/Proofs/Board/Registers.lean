import InstrumentBus.Driver.Register
import InstrumentBus.Proofs.AddressMap.Registers
import InstrumentBus.Proofs.Board.Faults
import InstrumentBus.Proofs.Spi.Controller

/-!
# The registers of a board

The register files of a board are sound, whatever its configuration, so a name that a board's manifest
resolves leads a word access of the same processor to the register's place in its block.
`Reachable.readWord_register` and `Reachable.writeWord_register` say what such an access does.
-/

namespace InstrumentBus

namespace Board

open AddressMap

variable {c : Config} {b : Board} {side : Side}

/-! ## Register files -/

theorem banked_regionsOf (wide : 0 < c.adcBits) (narrow : c.adcBits ≤ 32) (side : Side) :
    Banked (regionsOf c side) := by
  have adc : (Spi.Controller.layout c.adcBits).Sound := Spi.Controller.sound_layout wide narrow
  cases side with
  | supervisor =>
    refine .ofLayout (by decide) ?_
    refine .ofLayout adc ?_
    -- The four selections.
    refine .ofLayout (by decide) (.ofLayout (by decide) ?_)
    refine .ofLayout (by decide) (.ofLayout (by decide) ?_)
    -- The player with its RAM, the core with its RAM, the control loop.
    refine .ofLayout (by decide) (.plain ?_)
    refine .ofLayout (by decide) (.ofLayout (by decide +kernel) (.plain ?_))
    exact .ofLayout (by decide) (.ofLayout (by decide) .nil)
  | coprocessor =>
    exact .plain (.ofLayout (by decide) (.ofLayout adc (.ofLayout (by decide) .nil)))

theorem Reachable.adcBits_bounds (reach : Reachable c b) : 0 < c.adcBits ∧ c.adcBits ≤ 32 := by
  induction reach with
  | assembled assembled =>
    obtain ⟨_, _, bounds, -⟩ := assemble_eq_ok_iff.1 assembled
    exact bounds
  | step _ _ ih => exact ih

/-- The register files of a board have the sizes of their layouts, and these are sound. -/
theorem Reachable.banked (reach : Reachable c b) (side : Side) : Banked (b.map side).regions := by
  obtain ⟨wide, narrow⟩ := reach.adcBits_bounds
  intro r present layout bank
  exact banked_regionsOf wide narrow side r (reach.mem_map.1 present) layout bank

/-! ## Views -/

theorem View.readWord_of_perform {addr : Addr} {w : Word} {after : Board}
    (performed : b.perform side (.readWord addr) = (.ok w, after)) :
    Transport.readWord (View.mk side b) addr = (.ok w, View.mk side after) := by
  have read : b.readWord side addr = (.ok w, after) := performed
  show (b.readWord side addr).map id (View.mk side) = _
  rw [read]
  rfl

theorem View.writeWord_of_perform {addr : Addr} {w x : Word} {after : Board}
    (performed : b.perform side (.writeWord addr w) = (.ok x, after)) :
    Transport.writeWord (View.mk side b) addr w = (.ok (), View.mk side after) := by
  have written : (b.writeWord side addr w).map (Except.map fun _ => 0) id = (.ok x, after) :=
    performed
  show (b.writeWord side addr w).map id (View.mk side) = _
  rcases outcome : b.writeWord side addr w with ⟨_ | ⟨⟩, _⟩
  · rw [outcome] at written
    cases written
  · rw [outcome] at written
    cases written
    rfl

theorem View.writeByte_of_perform {addr : Addr} {x : Byte} {w : Word} {after : Board}
    (performed : b.perform side (.writeByte addr x) = (.ok w, after)) :
    Transport.writeByte (View.mk side b) addr x = (.ok (), View.mk side after) := by
  have written : (b.writeByte side addr x).map (Except.map fun _ => 0) id = (.ok w, after) := performed
  show (b.writeByte side addr x).map id (View.mk side) = _
  rcases outcome : b.writeByte side addr x with ⟨_ | ⟨⟩, _⟩
  · rw [outcome] at written
    cases written
  · rw [outcome] at written
    cases written
    rfl

theorem View.readByte_of_perform {addr : Addr} {x : Byte} {after : Board}
    (performed : b.perform side (.readByte addr) = (.ok (x.setWidth 32), after)) :
    Transport.readByte (View.mk side b) addr = (.ok x, View.mk side after) := by
  have read : (b.readByte side addr).map (Except.map fun v => v.setWidth 32) id = (.ok (x.setWidth 32), after) :=
    performed
  show (b.readByte side addr).map id (View.mk side) = _
  rcases outcome : b.readByte side addr with ⟨_ | y, _⟩
  · rw [outcome] at read
    cases read
  · rw [outcome] at read
    obtain ⟨same, rfl⟩ := Prod.mk.inj read
    have same : y.setWidth 32 = x.setWidth 32 := Except.ok.inj same
    have cut := congrArg (BitVec.setWidth 8) same
    rw [BitVec.setWidth_setWidth_of_le _ (by decide), BitVec.setWidth_setWidth_of_le _ (by decide),
      BitVec.setWidth_eq, BitVec.setWidth_eq] at cut
    rw [cut]
    rfl

/-! ## Accesses to registers -/

variable {region : AddressMap.Region Block} {layout : Layout} {i : Nat} {f : Field}

/-- An access at the address of a register is a transaction of its block at the register's offset. -/
theorem Reachable.perform_register (reach : Reachable c b)
    (here : HoldsRegister (b.map side) region layout i f) (op : Op)
    (atRegister : op.addr = region.origin + Layout.offset i) :
    ∃ answered,
      b.tick.transact? side region.owner (op.request.relocate (Layout.offset i)) = some answered ∧
      b.perform side op = (.ok (op.result answered.1.data), answered.2) := by
  have arranged := reach.arranged side
  have banked := reach.banked side
  have even : op.addr.Aligned := atRegister ▸ here.aligned arranged banked
  have base : op.addr.wordBase = region.origin + Layout.offset i := by
    rw [Addr.wordBase_of_aligned even, atRegister]
  have inside : region.origin + Layout.offset i ∈ region :=
    here.mem_span arranged banked (show 0 < 4 by decide)
  have offset : region.offsetOf (region.origin + Layout.offset i) = Layout.offset i := by
    rw [Region.offsetOf_eq_sub (arranged.placed here.present) inside, BitVec.add_comm,
      BitVec.add_sub_cancel]
  obtain ⟨answered, result, outcome⟩ :=
    reach.perform_of_mem op here.present (base ▸ inside) fun _ => even
  rw [base, offset] at result
  exact ⟨answered, result, outcome⟩

theorem Reachable.readWord_register (reach : Reachable c b)
    (here : HoldsRegister (b.map side) region layout i f) :
    ∃ answered, b.tick.transact? side region.owner (.read (Layout.offset i)) = some answered ∧
      Transport.readWord (View.mk side b) (region.origin + Layout.offset i) =
        (.ok answered.1.data, View.mk side answered.2) := by
  obtain ⟨answered, result, outcome⟩ :=
    reach.perform_register here (.readWord (region.origin + Layout.offset i)) rfl
  exact ⟨answered, result, View.readWord_of_perform outcome⟩

theorem Reachable.writeWord_register (reach : Reachable c b)
    (here : HoldsRegister (b.map side) region layout i f) (w : Word) :
    ∃ answered,
      b.tick.transact? side region.owner (.writeWord (Layout.offset i) w) = some answered ∧
      Transport.writeWord (View.mk side b) (region.origin + Layout.offset i) w =
        (.ok (), View.mk side answered.2) := by
  obtain ⟨answered, result, outcome⟩ :=
    reach.perform_register here (.writeWord (region.origin + Layout.offset i) w) rfl
  exact ⟨answered, result, View.writeWord_of_perform outcome⟩

/-- A register of a board is resolved by the manifest of the processor that sees it. -/
theorem Reachable.resolve_register (reach : Reachable c b)
    (here : HoldsRegister (b.map side) region layout i f) :
    RegisterRef.resolve (b.manifest side) region.name f.name =
      .ok { name := s!"{region.name}.{f.name}", addr := region.origin + Layout.offset i,
            width := f.width, access := f.access, side := .supervisor } := by
  have found := here.manifest_register? (reach.arranged side) (reach.banked side)
  rw [RegisterRef.resolve, manifest, found]

end Board

end InstrumentBus
