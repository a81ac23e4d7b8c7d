import InstrumentBus.BusSwitch
import InstrumentBus.Proofs.RegisterFile.Transaction
import InstrumentBus.Proofs.Word.Mask

/-!
# Who is connected through a bus switch

The selection of a switch is a register that is just wide enough for the index of every master, and
two paths write it: `select`, which checks the index, and the control region, which connects the
first master in the stead of one that does not exist. `active_select` and `active_transactControl`
say which master is connected afterwards; everything else leaves the selection as it is.
-/

namespace InstrumentBus.BusSwitch

variable {σ : Type}

/-! ## The control region -/

/-- The only register of a control region is the selection, at its first word. -/
theorem controlLayout_indexAt? (count : Nat) (offset : Addr) :
    (controlLayout count).indexAt? offset = if offset = 0 then some 0 else none := by
  have single : (controlLayout count).count = 1 := rfl
  unfold Layout.indexAt?
  rw [single]
  by_cases zero : offset = 0
  · subst zero
    rfl
  · have positive : offset.toNat ≠ 0 := fun none => zero (BitVec.eq_of_toNat_eq none)
    rw [if_neg zero, if_neg]
    rintro ⟨aligned, first⟩
    unfold Addr.Aligned at aligned
    omega

/-- The selection register holds the index of every master. -/
theorem lt_two_pow_selectionWidth {master count : Nat} (named : master < count) :
    master < 2 ^ (controlLayout count).widthAt 0 := by
  have width : (controlLayout count).widthAt 0 = max 1 (bitLength (count - 1)) := rfl
  have digits : count - 1 < 2 ^ bitLength (count - 1) := lt_two_pow_bitLength _
  have wider : 2 ^ bitLength (count - 1) ≤ 2 ^ max 1 (bitLength (count - 1)) :=
    Nat.pow_le_pow_right (by decide) (Nat.le_max_right _ _)
  rw [width]
  omega

/-! ## At reset -/

/-- The first master of a switch is connected when the switch is built. -/
theorem build_spec {masters : Array String} (device : σ)
    (populated : 1 ≤ masters.size) :
    ∃ s, build masters device = .ok s ∧ s.count = masters.size ∧ s.active = 0 ∧
      s.device = device := by
  refine ⟨reset masters device, ?_, rfl, rfl, rfl⟩
  unfold build
  rw [if_neg]
  intro empty
  rw [Array.isEmpty_iff_size_eq_zero] at empty
  omega

/-! ## Moving the connection -/

section Connect

variable {s : BusSwitch σ}

@[simp]
theorem device_connect (s : BusSwitch σ) (master : Word) :
    (s.connect master).device = s.device :=
  rfl

/-- Connecting a master that exists connects exactly that master. The register takes the index
whole, since the index that it held before fits it as well. -/
theorem active_connect {master : Word} (current : s.active < s.count)
    (named : master.toNat < s.count) : (s.connect master).active = master.toNat := by
  have reached : RegisterFile.writableIndex (controlLayout s.masters.size) 0 .supervisor = .ok 0 := by
    unfold RegisterFile.writableIndex
    rw [controlLayout_indexAt?, if_pos rfl]
    rfl
  have writes : (s.connect master).control.value 0 =
      Word.merge (s.control.value 0) master
        (BitVec.allOnes 32 &&& widthMask ((controlLayout s.masters.size).widthAt 0)) := by
    show ((s.control.transactFrom .supervisor (.write 0 master Lanes.all)).2).value 0 = _
    rw [RegisterFile.transactFrom_write_state, reached, RegisterFile.value_set,
      if_pos ⟨rfl, Nat.one_pos⟩, Lanes.mask_all]
  have held : (s.control.value 0).toNat < 2 ^ (controlLayout s.masters.size).widthAt 0 :=
    lt_two_pow_selectionWidth current
  show ((s.connect master).control.value 0).toNat = master.toNat
  rw [writes, BitVec.allOnes_and, Word.merge_widthMask held]
  exact toNat_and_widthMask_of_lt (lt_two_pow_selectionWidth named)

/-- Every master can be selected, and is connected then. -/
theorem active_select {master : Nat} (current : s.active < s.count) (few : s.count < 2 ^ 32)
    (named : master < s.count) :
    ∃ t, s.select master = .ok t ∧ t.active = master ∧ t.count = s.count ∧
      t.device = s.device := by
  have index : (BitVec.ofNat 32 master).toNat = master := by
    rw [BitVec.toNat_ofNat, Nat.mod_eq_of_lt (Nat.lt_trans named few)]
  refine ⟨s.connect (BitVec.ofNat 32 master), if_pos named, ?_, rfl, rfl⟩
  rw [active_connect current (by rwa [index]), index]

/-- The master that a transaction on the control region leaves connected: the one that the enabled
lanes of a write to the selection name, or the first if there is none of that index. -/
def ownerAfter (s : BusSwitch σ) : Request → Nat
  | .read _ => s.active
  | .write addr data lanes =>
    if addr = 0 then
      if (data &&& lanes.mask).toNat < s.count then (data &&& lanes.mask).toNat else 0
    else s.active

/-- A transaction beside the selection register leaves the control region as it is. -/
theorem transactRegisters_state (s : BusSwitch σ) {req : Request}
    (beside : ∀ data lanes, req ≠ .write 0 data lanes) : (s.transactRegisters req).2 = s := by
  have same : (s.control.transactFrom .supervisor req).2 = s.control := by
    cases req with
    | read addr => exact RegisterFile.transactFrom_read_state _ _ _
    | write addr data lanes =>
      have elsewhere : addr ≠ 0 := fun zero => beside data lanes (by rw [zero])
      have refused : RegisterFile.writableIndex (controlLayout s.masters.size) addr .supervisor =
          .error (.unmapped addr) := by
        unfold RegisterFile.writableIndex
        rw [controlLayout_indexAt?, if_neg elsewhere]
      rw [RegisterFile.transactFrom_write_state, refused]
  show { s with control := (s.control.transactFrom .supervisor req).2 } = s
  rw [same]

/-- Only a write to the selection register moves the connection. -/
theorem transactControl_of_beside (s : BusSwitch σ) {req : Request}
    (beside : ∀ data lanes, req ≠ .write 0 data lanes) : (s.transactControl req).2 = s := by
  cases req with
  | read addr => exact transactRegisters_state s beside
  | write addr data lanes =>
    have elsewhere : addr ≠ 0 := fun zero => beside data lanes (by rw [zero])
    unfold transactControl
    dsimp only
    rw [if_neg elsewhere]
    exact transactRegisters_state s beside

@[simp]
theorem count_transactControl (s : BusSwitch σ) (req : Request) :
    (s.transactControl req).2.count = s.count := by
  cases req with
  | read addr => rfl
  | write addr data lanes => unfold transactControl; dsimp only; split <;> rfl

@[simp]
theorem device_transactControl (s : BusSwitch σ) (req : Request) :
    (s.transactControl req).2.device = s.device := by
  cases req with
  | read addr => rfl
  | write addr data lanes => unfold transactControl; dsimp only; split <;> rfl

theorem active_transactControl (current : s.active < s.count) (req : Request) :
    (s.transactControl req).2.active = s.ownerAfter req := by
  cases req with
  | read addr =>
    rw [transactControl_of_beside s (by simp)]
    rfl
  | write addr data lanes =>
    by_cases selects : addr = 0
    · unfold transactControl ownerAfter
      dsimp only
      rw [if_pos selects, if_pos selects]
      split
      · next named => rw [active_connect current named]
      · exact active_connect current (Nat.lt_of_le_of_lt (Nat.zero_le _) current)
    · have beside (data' lanes') : Request.write addr data lanes ≠ .write 0 data' lanes' := by
        intro same
        cases same
        exact selects rfl
      rw [transactControl_of_beside s beside]
      exact (if_neg selects).symm

theorem ownerAfter_lt (current : s.active < s.count) (req : Request) :
    s.ownerAfter req < s.count := by
  unfold ownerAfter
  split
  · exact current
  · split
    · split
      · assumption
      · exact Nat.lt_of_le_of_lt (Nat.zero_le _) current
    · exact current

end Connect

/-! ## Transactions of the masters -/

section Transact

variable [Target σ]

/-- The connected master reaches the device. -/
theorem transact_of_active (s : BusSwitch σ) (req : Request) :
    s.transact s.active req = ((Target.transact s.device req).1,
      { s with device := (Target.transact s.device req).2 }) :=
  if_pos rfl

/-- A master that is not connected sees an idle bus and touches nothing. -/
theorem transact_of_ne_active {s : BusSwitch σ} {master : Nat} (other : master ≠ s.active)
    (req : Request) : s.transact master req = (.idle, s) :=
  if_neg other

@[simp]
theorem active_transact (s : BusSwitch σ) (master : Nat) (req : Request) :
    (s.transact master req).2.active = s.active := by
  unfold transact
  split <;> rfl

@[simp]
theorem count_transact (s : BusSwitch σ) (master : Nat) (req : Request) :
    (s.transact master req).2.count = s.count := by
  unfold transact
  split <;> rfl

end Transact

end InstrumentBus.BusSwitch
