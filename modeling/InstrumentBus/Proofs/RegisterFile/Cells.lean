import InstrumentBus.Proofs.RegisterFile.History

/-!
# Registers as independent cells

A register file keeps its registers in one vector and finds the register of an operation by its offset or its
place. Seen from one register, an operation either stores something in it or passes it by
(`Op.deposit?`), and what it stores replaces the bits in the enabled lanes and within the width. So along every
history a register holds what its own deposits leave in a cell that starts with zero (`value_run`), and
`serves_cells` adds to that which writes are refused and what is read.
-/

namespace InstrumentBus

/-! ## Registers at offsets -/

/-- The register `f` in place `i` of a layout lives at an offset. -/
structure Layout.Lives (l : Layout) (offset : Addr) (i : Nat) (f : Field) : Prop where
  found : l.fields[i]? = some f
  place : offset.toNat = 4 * i

section Offsets

variable {l : Layout} {offset : Addr} {i : Nat} {f : Field}

theorem Layout.Lives.indexAt? (lives : l.Lives offset i f) : l.indexAt? offset = some i := by
  have inside : i < l.count := (Array.getElem?_eq_some_iff.1 lives.found).1
  have place := lives.place
  have aligned : offset.Aligned := by
    unfold Addr.Aligned
    omega
  have quotient : offset.toNat / 4 = i := by omega
  rw [Layout.indexAt?, quotient, if_pos ⟨aligned, inside⟩]

theorem Layout.exists_lives_of_indexAt? (leads : l.indexAt? offset = some i) : ∃ f, l.Lives offset i f := by
  unfold Layout.indexAt? at leads
  split at leads
  · next here =>
    rcases here with ⟨aligned, inside⟩
    unfold Addr.Aligned at aligned
    cases leads
    exact ⟨_, Array.getElem?_eq_getElem inside, by omega⟩
  · cases leads

theorem Layout.indexAt?_eq_none (nowhere : ∀ i f, ¬l.Lives offset i f) : l.indexAt? offset = none := by
  cases leads : l.indexAt? offset with
  | none => rfl
  | some i =>
    rcases exists_lives_of_indexAt? leads with ⟨f, lives⟩
    exact absurd lives (nowhere i f)

end Offsets

/-! ## Cells -/

/-- A lane mask has the bits of the enabled lanes. -/
theorem Lanes.getLsbD_mask (lanes : Lanes) {b : Nat} (inWord : b < 32) :
    lanes.mask.getLsbD b = lanes.getLsbD (b / 8) := by
  revert lanes b
  decide +kernel

/-- Something to be stored in a register: a word, and the byte lanes of it that count. -/
structure Deposit where
  data : Word
  lanes : Lanes

namespace Deposit

/-- What a cell of some width holds after a deposit. -/
def into (d : Deposit) (width : Nat) (old : Word) : Word :=
  Word.merge old d.data (d.lanes.mask &&& widthMask width)

/-- A deposit replaces the bits in its lanes and within the width, and no others. -/
theorem getLsbD_into (d : Deposit) (width : Nat) (old : Word) {b : Nat} (inWord : b < 32) :
    (d.into width old).getLsbD b =
      if d.lanes.getLsbD (b / 8) = true ∧ b < width then d.data.getLsbD b else old.getLsbD b := by
  rw [into, Word.merge, BitVec.getLsbD_or, BitVec.getLsbD_and, BitVec.getLsbD_and, BitVec.getLsbD_not,
    BitVec.getLsbD_and, getLsbD_widthMask, Lanes.getLsbD_mask d.lanes inWord]
  by_cases enabled : d.lanes.getLsbD (b / 8) = true
  · by_cases within : b < width
    · simp [enabled, within, inWord]
    · simp [enabled, within, inWord]
  · simp [enabled, inWord]

/-- With all lanes, nothing is left of a value that keeps to the width. -/
theorem into_all (v : Word) {width : Nat} {old : Word} (fits : old.toNat < 2 ^ width) :
    into ⟨v, Lanes.all⟩ width old = v &&& widthMask width := by
  rw [into, Lanes.mask_all, BitVec.allOnes_and]
  exact Word.merge_widthMask fits

end Deposit

/-- What a register holds after deposits one after the other, the first of them into zero. -/
def Field.holding (f : Field) (deposits : List Deposit) : Word :=
  deposits.foldl (fun old d => d.into f.width old) 0

namespace RegisterFile

variable {layout : Layout} {r : RegisterFile layout} {offset : Addr} {side : Side} {i : Nat} {f : Field}

/-- What an operation stores in the register `f` in place `i`: a value that the hardware drives there, or a
word of a side that may write the register, at exactly the register's offset. -/
def Op.deposit? (f : Field) (i : Nat) : Op → Option Deposit
  | .drive j v => if j = i then some ⟨v, Lanes.all⟩ else none
  | .write offset v side =>
    if offset.toNat = 4 * i ∧ f.access.writableBy side = true then some ⟨v, Lanes.all⟩ else none
  | .transact side (.write offset v lanes) =>
    if offset.toNat = 4 * i ∧ f.access.writableBy side = true then some ⟨v, lanes⟩ else none
  | .read _ | .transact _ (.read _) => none

/-! ## Which writes are granted -/

/-- Why a write of a side at an offset is refused. -/
inductive Refusal (layout : Layout) (offset : Addr) (side : Side) : WriteError → Prop
  /-- No register lives at the offset. -/
  | unmapped : (∀ i f, ¬layout.Lives offset i f) → Refusal layout offset side (.unmapped offset)
  /-- Nobody may write the register. -/
  | readOnly {i : Nat} {f : Field} : layout.Lives offset i f → f.access = .readOnly →
    Refusal layout offset side (.readOnly f.name)
  /-- The other side alone may write the register. -/
  | wrongSide {i : Nat} {f : Field} : layout.Lives offset i f → f.access = .ownedBy side.opposite →
    Refusal layout offset side (.wrongSide f.name side)

/-- A side that may not write a register meets one that nobody writes, or one of the other side. -/
theorem access_of_not_writableBy {access : Access} (refused : access.writableBy side = false) :
    access = .readOnly ∨ access = .ownedBy side.opposite := by
  cases access with
  | readOnly => exact .inl rfl
  | readWrite => cases refused
  | ownedBy owner => cases owner <;> cases side <;> simp_all [Access.writableBy, Side.opposite]

theorem writableIndex_of_lives (lives : layout.Lives offset i f) (granted : f.access.writableBy side = true) :
    writableIndex layout offset side = .ok i := by
  simp [writableIndex, lives.indexAt?, lives.found, granted]

theorem writableIndex_of_refusal {e : WriteError} (refusal : Refusal layout offset side e) :
    writableIndex layout offset side = .error e := by
  cases refusal with
  | unmapped nowhere => simp [writableIndex, Layout.indexAt?_eq_none nowhere]
  | readOnly lives fixed =>
    simp [writableIndex, lives.indexAt?, lives.found, fixed, Access.writableBy]
  | wrongSide lives owned =>
    cases side <;>
      simp [writableIndex, lives.indexAt?, lives.found, owned, Access.writableBy, Side.opposite]

/-- Every write is granted by the register at its offset, or refused for one of the three reasons. -/
theorem granted_or_refusal (layout : Layout) (offset : Addr) (side : Side) :
    (∃ i f, layout.Lives offset i f ∧ f.access.writableBy side = true) ∨
      ∃ e, Refusal layout offset side e := by
  cases leads : layout.indexAt? offset with
  | none =>
    refine .inr ⟨_, .unmapped fun i f lives => ?_⟩
    cases leads.symm.trans lives.indexAt?
  | some i =>
    rcases Layout.exists_lives_of_indexAt? leads with ⟨f, lives⟩
    cases permitted : f.access.writableBy side with
    | true => exact .inl ⟨i, f, lives, permitted⟩
    | false =>
      rcases access_of_not_writableBy permitted with fixed | owned
      · exact .inr ⟨_, .readOnly lives fixed⟩
      · exact .inr ⟨_, .wrongSide lives owned⟩

theorem writeMasked_of_granted (lives : layout.Lives offset i f) (granted : f.access.writableBy side = true)
    (v mask : Word) :
    r.writeMasked offset v mask side =
      .ok { r with
        values := r.values.setIfInBounds i
          (Word.merge (r.value i) v (mask &&& widthMask (layout.widthAt i))) } := by
  rw [writeMasked, writableIndex_of_lives lives granted]
  rfl

theorem writeMasked_of_refusal {e : WriteError} (refusal : Refusal layout offset side e) (v mask : Word) :
    r.writeMasked offset v mask side = .error e := by
  rw [writeMasked, writableIndex_of_refusal refusal]
  rfl

theorem write_granted_iff (v : Word) :
    (∃ after, r.write offset v side = .ok after) ↔
      ∃ i f, layout.Lives offset i f ∧ f.access.writableBy side = true := by
  constructor
  · rintro ⟨after, written⟩
    rcases granted_or_refusal layout offset side with granted | ⟨e, refusal⟩
    · exact granted
    · cases written.symm.trans (writeMasked_of_refusal refusal v _)
  · rintro ⟨i, f, lives, granted⟩
    exact ⟨_, writeMasked_of_granted lives granted v _⟩

theorem write_refused_iff (v : Word) (e : WriteError) :
    r.write offset v side = .error e ↔ Refusal layout offset side e := by
  refine ⟨fun refused => ?_, fun refusal => writeMasked_of_refusal refusal v _⟩
  rcases granted_or_refusal layout offset side with ⟨i, f, lives, granted⟩ | ⟨reason, refusal⟩
  · cases refused.symm.trans (writeMasked_of_granted lives granted v _)
  · cases refused.symm.trans (writeMasked_of_refusal refusal v _)
    exact refusal

/-! ## One operation -/

/-- What a write leaves in a register: the word comes in under the mask if it reaches the register and is
granted there. -/
theorem value_writeMasked (found : layout.fields[i]? = some f) (v mask : Word) :
    ((r.writeMasked offset v mask side).toOption.getD r).value i =
      if offset.toNat = 4 * i ∧ f.access.writableBy side = true then
        Word.merge (r.value i) v (mask &&& widthMask f.width)
      else r.value i := by
  have inside : i < layout.count := (Array.getElem?_eq_some_iff.1 found).1
  have width : layout.widthAt i = f.width := by simp [Layout.widthAt, found]
  rcases granted_or_refusal layout offset side with ⟨j, g, lives, granted⟩ | ⟨e, refusal⟩
  · rw [writeMasked_of_granted lives granted]
    simp only [Except.toOption, Option.getD_some, value_set]
    by_cases here : offset.toNat = 4 * i
    · obtain rfl : j = i := by
        have place := lives.place
        omega
      obtain rfl : g = f := Option.some.inj (lives.found.symm.trans found)
      simp [here, granted, inside, width]
    · have other : j ≠ i := fun same => here (same ▸ lives.place)
      simp [here, other]
  · have denied : ¬(offset.toNat = 4 * i ∧ f.access.writableBy side = true) := by
      rintro ⟨here, granted⟩
      cases (writableIndex_of_refusal refusal).symm.trans (writableIndex_of_lives ⟨found, here⟩ granted)
    rw [writeMasked_of_refusal refusal, if_neg denied]
    rfl

/-- An operation leaves in a register what it stores there, and nothing else. -/
theorem value_step (fits : r.Fits) (found : layout.fields[i]? = some f) (op : Op) :
    (r.step op).value i = (op.deposit? f i).elim (r.value i) fun d => d.into f.width (r.value i) := by
  have inside : i < layout.count := (Array.getElem?_eq_some_iff.1 found).1
  have width : layout.widthAt i = f.width := by simp [Layout.widthAt, found]
  cases op with
  | read offset => rfl
  | write offset v side =>
    have stored : r.step (.write offset v side) =
        (r.writeMasked offset v Lanes.all.mask side).toOption.getD r := by
      rw [Lanes.mask_all]
      simp only [step, write]
      cases r.writeMasked offset v (BitVec.allOnes 32) side <;> rfl
    rw [stored, value_writeMasked found, Op.deposit?]
    split <;> rfl
  | drive j v =>
    rw [step, Op.deposit?]
    by_cases here : j = i
    · subst here
      rw [value_drive_self r inside, if_pos rfl, width]
      exact (Deposit.into_all v (fits.toNat_value_lt found)).symm
    · rw [value_drive_of_ne r here, if_neg here]
      rfl
  | transact side req =>
    cases req with
    | read addr => simp [step, Op.deposit?]
    | write addr data lanes =>
      have stored : r.step (.transact side (.write addr data lanes)) =
          (r.writeMasked addr data lanes.mask side).toOption.getD r := by
        simp only [step, transactFrom_write]
        cases r.writeMasked addr data lanes.mask side <;> rfl
      rw [stored, value_writeMasked found, Op.deposit?]
      split <;> rfl

/-! ## Histories -/

/-- Along a history a register takes its own deposits in their order, whatever happens to the others. -/
theorem value_run (fits : r.Fits) (found : layout.fields[i]? = some f) (ops : List Op) :
    (r.run ops).value i =
      (ops.filterMap (Op.deposit? f i)).foldl (fun old d => d.into f.width old) (r.value i) := by
  induction ops generalizing r with
  | nil => rfl
  | cons op rest ih =>
    show ((r.step op).run rest).value i = _
    rw [ih (fits.step op), value_step fits found]
    cases stores : op.deposit? f i with
    | none => rw [List.filterMap_cons_none stores, Option.elim_none]
    | some d => rw [List.filterMap_cons_some stores, Option.elim_some, List.foldl_cons]

/-- What a register file promises after a history, register by register and offset by offset. -/
structure ServesCells (r : RegisterFile layout) (ops : List Op) : Prop where
  /-- Every value keeps to its width. -/
  fits : ∀ i f, layout.fields[i]? = some f → (r.value i).toNat < 2 ^ f.width
  /-- Every register holds what was stored in it alone. -/
  holds : ∀ i f, layout.fields[i]? = some f → r.value i = f.holding (ops.filterMap (Op.deposit? f i))
  /-- Each time the bits in the enabled lanes and within the width were replaced, and no others. -/
  replaced : ∀ (i : Nat) (f : Field), layout.fields[i]? = some f → ∀ (d : Deposit) (old : Word) (b : Nat), b < 32 →
    (d.into f.width old).getLsbD b =
      if d.lanes.getLsbD (b / 8) = true ∧ b < f.width then d.data.getLsbD b else old.getLsbD b
  granted : ∀ offset v side, (∃ after, r.write offset v side = .ok after) ↔
    ∃ i f, layout.Lives offset i f ∧ f.access.writableBy side = true
  refused : ∀ offset v side e, r.write offset v side = .error e ↔ Refusal layout offset side e
  /-- A write that is refused changes nothing, be it a call or a transaction with any lanes. -/
  dropped : ∀ offset v side e, Refusal layout offset side e →
    r.step (.write offset v side) = r ∧ ∀ lanes, r.step (.transact side (.write offset v lanes)) = r
  /-- A read changes nothing. -/
  undisturbed : ∀ offset side, r.step (.read offset) = r ∧ r.step (.transact side (.read offset)) = r
  /-- At the offset of a register its value is read. -/
  mapped : ∀ offset i f, layout.Lives offset i f → r.read offset = .ok (r.value i) ∧
    ∀ side, (r.transactFrom side (.read offset)).1 = .acked (r.value i)
  /-- Anywhere else a call fails and a transaction answers the word of its side. -/
  unmapped : ∀ offset, (∀ i f, ¬layout.Lives offset i f) → r.read offset = .error (.unmapped offset) ∧
    ∀ side, (r.transactFrom side (.read offset)).1 = .acked side.unmappedWord

/-- Whatever the layout and the history of reads, writes, driven values and transactions of both sides, a
register file works like cells that do not know of each other. -/
theorem serves_cells (layout : Layout) (ops : List Op) : ((zero layout).run ops).ServesCells ops where
  fits _ _ found := (run_fits layout ops).toNat_value_lt found
  holds i f found := by
    rw [value_run (fits_zero layout) found, value_zero]
    rfl
  replaced _ f _ d old _ inWord := d.getLsbD_into f.width old inWord
  granted _ v _ := write_granted_iff v
  refused _ v _ e := write_refused_iff v e
  dropped offset v side e refusal := by
    refine ⟨?_, fun lanes => ?_⟩
    · simp [step, write, writeMasked_of_refusal refusal]
    · simp [step, transactFrom_write, writeMasked_of_refusal refusal]
  undisturbed _ _ := ⟨rfl, transactFrom_read_state _ _ _⟩
  mapped _ _ _ lives :=
    ⟨read_of_indexAt? lives.indexAt? _, fun side => transactFrom_read_of_indexAt? lives.indexAt? _ side⟩
  unmapped offset nowhere := by
    have missing (r : RegisterFile layout) : r.read offset = .error (.unmapped offset) := by
      rw [read, Layout.indexAt?_eq_none nowhere]
    refine ⟨missing _, fun side => ?_⟩
    simp only [transactFrom, missing]

/-- A write of one lane changes the byte in this lane. -/
example :
    ((zero { fields := #[⟨"word", 32, .readWrite⟩] }).run
      [.write 0 0x11223344 .supervisor, .transact .coprocessor (.write 0 0xAABBCCDD 0b0010)]).value 0 =
      0x1122CC44 := by
  decide

end RegisterFile

end InstrumentBus
