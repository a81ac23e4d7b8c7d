import InstrumentBus.RegisterFile

/-!
# What a transaction does to a register file

A transaction on a register file is always acknowledged. A read changes nothing, and a write changes
at most the one register at its offset, and that one only if the side it comes from may write it.
-/

namespace InstrumentBus.RegisterFile

variable {layout : Layout}

/-! ## Which register a write reaches -/

/-- A register that a side may write lives at the offset and grants the side access. -/
theorem writableIndex_eq_ok {offset : Addr} {side : Side} {i : Nat}
    (writable : writableIndex layout offset side = .ok i) :
    ∃ f, layout.indexAt? offset = some i ∧ layout.fields[i]? = some f ∧
      f.access.writableBy side = true := by
  unfold writableIndex at writable
  split at writable
  · cases writable
  · next j at_offset =>
    split at writable
    · cases writable
    · next f found =>
      split at writable
      · next granted =>
        cases writable
        exact ⟨f, at_offset, found, granted⟩
      · split at writable <;> cases writable

/-- Only one offset leads to a register. -/
theorem eq_offset_of_indexAt? {offset : Addr} {i : Nat} (leads : layout.indexAt? offset = some i) :
    offset = Layout.offset i := by
  unfold Layout.indexAt? at leads
  split at leads
  · next here =>
    obtain ⟨aligned, -⟩ := here
    unfold Addr.Aligned at aligned
    cases leads
    have whole : 4 * (offset.toNat / 4) = offset.toNat := by omega
    rw [Layout.offset, whole, BitVec.ofNat_toNat, BitVec.setWidth_eq]
  · cases leads

/-! ## Values after a write -/

theorem value_zero (layout : Layout) (i : Nat) : (zero layout).value i = 0 := by
  unfold zero value
  rw [Vector.getElem?_replicate]
  split <;> rfl

theorem value_set (r : RegisterFile layout) (i j : Nat) (v : Word) :
    ({ r with values := r.values.setIfInBounds i v } : RegisterFile layout).value j =
      if i = j ∧ i < layout.count then v else r.value j := by
  unfold value
  rw [Vector.getElem?_setIfInBounds]
  by_cases same : i = j
  · subst same
    by_cases inside : i < layout.count
    · simp [inside]
    · simp [inside]
  · simp [same]

theorem value_drive_self (r : RegisterFile layout) {i : Nat} (inside : i < layout.count) (v : Word) :
    (r.drive i v).value i = v &&& widthMask (layout.widthAt i) :=
  (value_set r i i _).trans (if_pos ⟨rfl, inside⟩)

theorem value_drive_of_ne (r : RegisterFile layout) {i j : Nat} (other : i ≠ j) (v : Word) :
    (r.drive i v).value j = r.value j :=
  (value_set r i j _).trans (if_neg fun same => other same.1)

/-- A write of a side is acknowledged whether it is granted or refused. -/
theorem transactFrom_write (r : RegisterFile layout) (side : Side) (addr : Addr) (data : Word)
    (lanes : Lanes) :
    r.transactFrom side (.write addr data lanes) =
      (.acked 0, match r.writeMasked addr data lanes.mask side with
        | .ok after => after
        | .error _ => r) := by
  simp only [transactFrom]
  cases r.writeMasked addr data lanes.mask side with
  | ok after => rfl
  | error e => rfl

/-- The state after a write from a side: the register it may reach is merged, or nothing happens. -/
theorem transactFrom_write_state (r : RegisterFile layout) (side : Side) (addr : Addr) (data : Word)
    (lanes : Lanes) :
    (r.transactFrom side (.write addr data lanes)).2 =
      match writableIndex layout addr side with
      | .ok i =>
        { r with
          values := r.values.setIfInBounds i
            (Word.merge (r.value i) data (lanes.mask &&& widthMask (layout.widthAt i))) }
      | .error _ => r := by
  cases reached : writableIndex layout addr side with
  | error e => simp [transactFrom, writeMasked, reached, bind, Except.bind]
  | ok i => simp [transactFrom, writeMasked, reached, bind, Except.bind, pure, Except.pure]

/-! ## Every transaction -/

/-- A register file answers at once, whoever asks and whatever is asked. -/
@[simp]
theorem transactFrom_ack (r : RegisterFile layout) (side : Side) (req : Request) :
    (r.transactFrom side req).1.ack = true := by
  cases req with
  | read addr => unfold transactFrom; dsimp only; split <;> rfl
  | write addr data lanes => unfold transactFrom; dsimp only; split <;> rfl

@[simp]
theorem transactFrom_read_state (r : RegisterFile layout) (side : Side) (addr : Addr) :
    (r.transactFrom side (.read addr)).2 = r := by
  unfold transactFrom
  dsimp only
  split <;> rfl

/-- A side does not change a register that it may not write. -/
theorem value_transactFrom_of_not_writableBy (r : RegisterFile layout) {side : Side} {j : Nat}
    {f : Field} (found : layout.fields[j]? = some f) (refused : f.access.writableBy side = false)
    (req : Request) : (r.transactFrom side req).2.value j = r.value j := by
  cases req with
  | read addr => rw [transactFrom_read_state]
  | write addr data lanes =>
    rw [transactFrom_write_state]
    cases reached : writableIndex layout addr side with
    | error e => rfl
    | ok i =>
      obtain ⟨g, -, foundG, granted⟩ := writableIndex_eq_ok reached
      have other : i ≠ j := by
        rintro rfl
        rw [found] at foundG
        cases foundG
        rw [granted] at refused
        cases refused
      rw [value_set, if_neg fun same => other same.1]

/-- A transaction changes no register but the one at the offset that it writes to. -/
theorem value_transactFrom_of_ne_offset (r : RegisterFile layout) (side : Side) {req : Request}
    {j : Nat} (beside : ∀ data lanes, req ≠ .write (Layout.offset j) data lanes) :
    (r.transactFrom side req).2.value j = r.value j := by
  cases req with
  | read addr => rw [transactFrom_read_state]
  | write addr data lanes =>
    rw [transactFrom_write_state]
    cases reached : writableIndex layout addr side with
    | error e => rfl
    | ok i =>
      obtain ⟨f, leads, -, -⟩ := writableIndex_eq_ok reached
      have other : i ≠ j := by
        rintro rfl
        exact beside data lanes (by rw [← eq_offset_of_indexAt? leads])
      rw [value_set, if_neg fun same => other same.1]

end InstrumentBus.RegisterFile
