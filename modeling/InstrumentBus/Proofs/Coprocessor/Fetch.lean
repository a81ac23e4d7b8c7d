import InstrumentBus.Coprocessor
import InstrumentBus.Proofs.Board.Reach
import InstrumentBus.Proofs.RegisterFile.History

/-!
# Steps of the core

The core looks at `enable` once in a step and remembers what it saw. Out of reset it fetches its first word in
the first step that finds `enable` set, whatever it had shown before; a step that finds what the last one found
does nothing. So whoever clears `enable` for one step and sets it again has the core fetch anew.
-/

namespace InstrumentBus.Coprocessor

variable {ρ : Type} [Target ρ] {k : Coprocessor}

/-! ## One step -/

/-- A step that finds `enable` as the last one did changes nothing. -/
theorem tick_of_settled (settled : k.wasEnabled = k.enabled) (ram : ρ) : k.tick ram = (k, ram) := by
  unfold tick
  rw [settled]
  cases k.enabled <;> rfl

/-- A step does not write `enable`. -/
theorem enabled_tick (k : Coprocessor) (ram : ρ) : (k.tick ram).1.enabled = k.enabled := by
  have other {control : RegisterFile controlLayout} (same : control.value enable = k.control.value enable)
      (debug : RegisterFile debugLayout) (was : Bool) : enabled ⟨control, debug, was⟩ = k.enabled := by
    rw [enabled, enabled, same]
  unfold tick
  dsimp only
  split
  · refine other ?_ _ _
    rw [RegisterFile.value_drive_of_ne _ (by decide), RegisterFile.value_drive_of_ne _ (by decide)]
  · split
    · exact other (RegisterFile.value_drive_of_ne _ (by decide) _) _ _
    · rfl

/-- After a step the core knows whether it is out of reset. -/
theorem wasEnabled_tick (k : Coprocessor) (ram : ρ) : (k.tick ram).1.wasEnabled = k.enabled := by
  by_cases settled : k.wasEnabled = k.enabled
  · rw [tick_of_settled settled, settled]
  · unfold tick
    cases was : k.wasEnabled <;> cases now : k.enabled
    · exact absurd (was.trans now.symm) settled
    · rfl
    · rfl
    · exact absurd (was.trans now.symm) settled

/-- A step does nothing to a RAM that a read does nothing to. -/
theorem ram_tick (k : Coprocessor) {ram : ρ} (reads : (Target.transact ram (.read 0)).2 = ram) :
    (k.tick ram).2 = ram := by
  unfold tick
  dsimp only
  split
  · exact reads
  · split <;> rfl

/-! ## The first word -/

/-- The core shows that it fetched a word at its reset vector. -/
structure Fetched (w : Word) (k : Coprocessor) : Prop where
  counter : k.control.value programCounter = resetVector
  word : k.control.value opcode = w

/-- The step that finds the core out of reset for the first time fetches the first word. -/
theorem fetched_tick (enabled : k.enabled = true) (fresh : k.wasEnabled = false) (ram : ρ) :
    (k.tick ram).1.Fetched (Target.transact ram (.read 0)).1.data := by
  unfold tick
  rw [enabled, fresh]
  constructor
  · exact (RegisterFile.value_drive_of_ne _ (by decide) _).trans
      ((RegisterFile.value_drive_self _ (by decide) _).trans (and_widthMask_word _))
  · exact (RegisterFile.value_drive_self _ (by decide) _).trans (and_widthMask_word _)

/-! ## Widths -/

theorem fits_tick (fits : k.control.Fits) (ram : ρ) : (k.tick ram).1.control.Fits := by
  unfold tick
  dsimp only
  split
  · exact (fits.step (.drive programCounter _)).step (.drive opcode _)
  · split
    · exact fits.step (.drive trap _)
    · exact fits

theorem fits_act (fits : k.control.Fits) (activity : Activity) : (k.act activity).control.Fits := by
  cases activity with
  | trap code => exact fits.step (.drive trap code)
  | busWrite addr data => exact (fits.step (.drive busAddress addr)).step (.drive busData data)
  | register n v =>
    show (k.setRegister n v).control.Fits
    unfold setRegister
    split <;> exact fits
  | control req => exact fits.step (.transact .supervisor req)
  | debug req => exact fits

/-- Nothing but a transaction with the control region tells the core to leave or enter its reset. -/
theorem enabled_act (k : Coprocessor) {activity : Activity} (other : ∀ req, activity ≠ .control req) :
    (k.act activity).enabled = k.enabled ∧ (k.act activity).wasEnabled = k.wasEnabled := by
  cases activity with
  | trap code =>
    refine ⟨?_, rfl⟩
    show ((k.control.drive trap code).value enable == 1) = _
    rw [RegisterFile.value_drive_of_ne _ (by decide), enabled]
  | busWrite addr data =>
    refine ⟨?_, rfl⟩
    show (((k.control.drive busAddress addr).drive busData data).value enable == 1) = _
    rw [RegisterFile.value_drive_of_ne _ (by decide), RegisterFile.value_drive_of_ne _ (by decide), enabled]
  | register n v =>
    show (k.setRegister n v).enabled = _ ∧ (k.setRegister n v).wasEnabled = _
    unfold setRegister
    split <;> exact ⟨rfl, rfl⟩
  | control req => exact absurd rfl (other req)
  | debug req => exact ⟨rfl, rfl⟩

/-- The supervisor sets `enable` with a write of its word. -/
theorem enabled_transactControl (fits : k.control.Fits) (w : Word) :
    (k.transactControl (.writeWord (Layout.offset enable) w)).2.enabled = (w &&& widthMask 1 == 1) := by
  have found : controlLayout.fields[enable]? = some ⟨"enable", 1, .readWrite⟩ := rfl
  have granted : Access.readWrite.writableBy .supervisor = true := rfl
  have value := fits.value_transactFrom_writeWord (by decide) found granted w enable
  rw [if_pos rfl] at value
  exact congrArg (· == 1) value

end InstrumentBus.Coprocessor
