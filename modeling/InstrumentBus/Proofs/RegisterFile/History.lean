import InstrumentBus.Proofs.RegisterFile.Access
import InstrumentBus.Proofs.RegisterFile.Layout
import InstrumentBus.Proofs.Word.Mask

/-!
# What a register can hold

A register file starts with zeros and changes by what the bus and the hardware do to it. Along every
history a register keeps to its width (`run_fits`): each operation cuts what it stores. So a whole write
leaves just the low bits of the value, and a value that was cut before it is written ends up the same.
-/

namespace InstrumentBus

/-- A write under a mask that lies within a width keeps a value within that width. -/
theorem Word.merge_lt {old new mask : Word} {w : Nat} (fits : old.toNat < 2 ^ w) :
    (Word.merge old new (mask &&& widthMask w)).toNat < 2 ^ w := by
  have kept : (old &&& ~~~(mask &&& widthMask w)).toNat < 2 ^ w := by
    rw [BitVec.toNat_and]
    exact Nat.lt_of_le_of_lt Nat.and_le_left fits
  have stored : (new &&& (mask &&& widthMask w)).toNat < 2 ^ w := by
    rw [← BitVec.and_assoc, toNat_and_widthMask]
    apply Nat.lt_of_lt_of_le (Nat.mod_lt _ (Nat.two_pow_pos _))
    exact Nat.pow_le_pow_right (by decide) (Nat.min_le_left w 32)
  rw [Word.merge, BitVec.toNat_or]
  exact Nat.or_lt_two_pow kept stored

theorem Word.merge_and_mask (old new mask : Word) :
    Word.merge old (new &&& mask) mask = Word.merge old new mask := by
  rw [Word.merge, Word.merge, BitVec.and_assoc, BitVec.and_self]

namespace RegisterFile

variable {layout : Layout} {offset : Addr} {i : Nat} {f : Field}

/-! ## Histories -/

/-- What can happen to a register file: a read or a write of a side at an offset, a value that the
hardware drives, or a transaction of a side. -/
inductive Op where
  | read (offset : Addr)
  | write (offset : Addr) (v : Word) (side : Side)
  | drive (i : Nat) (v : Word)
  | transact (side : Side) (req : Request)
deriving DecidableEq, Repr

/-- The register file after an operation; a write that is refused leaves it as it is. -/
def step (r : RegisterFile layout) : Op → RegisterFile layout
  | .read _ => r
  | .write offset v side =>
    match r.write offset v side with
    | .ok after => after
    | .error _ => r
  | .drive i v => r.drive i v
  | .transact side req => (r.transactFrom side req).2

/-- The register file after several operations. -/
def run (r : RegisterFile layout) (ops : List Op) : RegisterFile layout :=
  ops.foldl step r

/-! ## Widths -/

/-- Every register holds a value within its width. -/
def Fits (r : RegisterFile layout) : Prop :=
  ∀ i, (r.value i).toNat < 2 ^ layout.widthAt i

variable {r : RegisterFile layout}

theorem fits_zero (layout : Layout) : (zero layout).Fits := by
  intro i
  rw [value_zero]
  exact Nat.two_pow_pos _

theorem Fits.set (fits : r.Fits) {v : Word} (narrow : v.toNat < 2 ^ layout.widthAt i) :
    ({ r with values := r.values.setIfInBounds i v } : RegisterFile layout).Fits := by
  intro j
  rw [value_set]
  split
  · next reached =>
    rw [← reached.1]
    exact narrow
  · exact fits j

theorem Fits.writeMasked (fits : r.Fits) {v mask : Word} {side : Side} {after : RegisterFile layout}
    (written : r.writeMasked offset v mask side = .ok after) : after.Fits := by
  unfold RegisterFile.writeMasked at written
  cases reached : writableIndex layout offset side with
  | error e =>
    rw [reached] at written
    cases written
  | ok i =>
    rw [reached] at written
    cases written
    exact fits.set (Word.merge_lt (fits i))

theorem Fits.step (fits : r.Fits) (op : Op) : (r.step op).Fits := by
  cases op with
  | read offset => exact fits
  | write offset v side =>
    simp only [RegisterFile.step, RegisterFile.write]
    split
    · next after written => exact fits.writeMasked written
    · exact fits
  | drive i v =>
    refine fits.set ?_
    rw [toNat_and_widthMask]
    apply Nat.lt_of_lt_of_le (Nat.mod_lt _ (Nat.two_pow_pos _))
    exact Nat.pow_le_pow_right (by decide) (Nat.min_le_left _ 32)
  | transact side req =>
    cases req with
    | read addr =>
      simp only [RegisterFile.step, transactFrom_read_state]
      exact fits
    | write addr data lanes =>
      simp only [RegisterFile.step, transactFrom_write]
      split
      · next after written => exact fits.writeMasked written
      · exact fits

/-- Whatever happens to a register file, its registers keep to their widths. -/
theorem Fits.run (fits : r.Fits) (ops : List Op) : (r.run ops).Fits := by
  induction ops generalizing r with
  | nil => exact fits
  | cons op rest ih => exact ih (fits.step op)

theorem run_fits (layout : Layout) (ops : List Op) : ((zero layout).run ops).Fits :=
  (fits_zero layout).run ops

theorem Fits.toNat_value_lt (fits : r.Fits) (found : layout.fields[i]? = some f) :
    (r.value i).toNat < 2 ^ f.width := by
  have width : layout.widthAt i = f.width := by
    rw [Layout.widthAt, found]
    rfl
  rw [← width]
  exact fits i

theorem Fits.value_and_widthMask (fits : r.Fits) (found : layout.fields[i]? = some f) :
    r.value i &&& widthMask f.width = r.value i :=
  BitVec.eq_of_toNat_eq (toNat_and_widthMask_of_lt (fits.toNat_value_lt found))

/-- Registers that are as wide as a word hold whatever a word can hold. -/
theorem fits_of_wide (wide : ∀ f ∈ layout.fields, f.width = 32) (r : RegisterFile layout) :
    r.Fits := by
  intro i
  cases found : layout.fields[i]? with
  | some f =>
    have width : layout.widthAt i = 32 := by
      rw [Layout.widthAt, found]
      exact wide f (Array.mem_of_getElem? found)
    rw [width]
    exact (r.value i).isLt
  | none =>
    have beyond : layout.count ≤ i := Array.getElem?_eq_none_iff.1 found
    rw [value, Vector.getElem?_eq_none beyond]
    exact Nat.two_pow_pos _

/-! ## Whole writes -/

/-- A value that was cut to the width before it is written ends up the same. -/
theorem write_and_widthMask (leads : layout.indexAt? offset = some i)
    (found : layout.fields[i]? = some f) (r : RegisterFile layout) (v : Word) (side : Side) :
    r.write offset (v &&& widthMask f.width) side = r.write offset v side := by
  rw [write_of_indexAt? leads found, write_of_indexAt? leads found, Word.merge_and_mask]

/-- A transaction that writes the whole word does what a write does, and hides a refusal. -/
theorem transactFrom_writeWord (r : RegisterFile layout) (side : Side) (offset : Addr) (v : Word) :
    r.transactFrom side (.writeWord offset v) =
      (.acked 0, match r.write offset v side with
        | .ok after => after
        | .error _ => r) := by
  rw [Request.writeWord, transactFrom_write, Lanes.mask_all]
  rfl

/-- A read at a register's place answers what it holds, and changes nothing. -/
theorem transactFrom_read_offset (sound : layout.Sound) (inside : i < layout.count)
    (r : RegisterFile layout) (side : Side) :
    r.transactFrom side (.read (Layout.offset i)) = (.acked (r.value i), r) :=
  Prod.ext (transactFrom_read_of_indexAt? (sound.indexAt?_offset inside) r side)
    (r.transactFrom_read_state side _)

/-- A transaction that writes the word of a register keeps the bits within its width, and changes no other
register. -/
theorem Fits.value_transactFrom_writeWord (fits : r.Fits) (sound : layout.Sound)
    (found : layout.fields[i]? = some f) {side : Side} (granted : f.access.writableBy side = true)
    (w : Word) (j : Nat) :
    (r.transactFrom side (.writeWord (Layout.offset i) w)).2.value j =
      if j = i then w &&& widthMask f.width else r.value j := by
  have inside : i < layout.count := (Array.getElem?_eq_some_iff.1 found).1
  obtain ⟨after, written, here, beside⟩ :=
    r.write_eq_ok (sound.indexAt?_offset inside) found w granted
  have state : (r.transactFrom side (.writeWord (Layout.offset i) w)).2 = after := by
    rw [transactFrom_writeWord, written]
  rw [state]
  by_cases same : j = i
  · rw [if_pos same, same, here, Word.merge_widthMask (fits.toNat_value_lt found)]
  · rw [if_neg same, beside j same]

end RegisterFile

end InstrumentBus
