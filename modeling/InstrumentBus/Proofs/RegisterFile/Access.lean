import InstrumentBus.Proofs.RegisterFile.Transaction

/-!
# Access to one register

An offset that leads to a register reads that register. A write there either is refused by the access
mode of the register or changes the bits of this one register within its width.
-/

namespace InstrumentBus.RegisterFile

variable {layout : Layout} {offset : Addr} {i : Nat}

theorem read_of_indexAt? (leads : layout.indexAt? offset = some i) (r : RegisterFile layout) :
    r.read offset = .ok (r.value i) := by
  rw [read, leads]

theorem transactFrom_read_of_indexAt? {addr : Addr} {i : Nat}
    (leads : layout.indexAt? addr = some i) (r : RegisterFile layout) (reader : Side) :
    (r.transactFrom reader (.read addr)).1 = .acked (r.value i) := by
  simp only [transactFrom, read_of_indexAt? leads]

/-- A write to an offset that leads to a register is refused, or merges the value into the register. -/
theorem write_of_indexAt? {f : Field} (leads : layout.indexAt? offset = some i)
    (found : layout.fields[i]? = some f) (r : RegisterFile layout) (v : Word) (side : Side) :
    r.write offset v side =
      if f.access.writableBy side then
        .ok { r with
          values := r.values.setIfInBounds i (Word.merge (r.value i) v (widthMask f.width)) }
      else if f.access = .readOnly then .error (.readOnly f.name)
      else .error (.wrongSide f.name side) := by
  have bits : BitVec.allOnes 32 &&& widthMask (layout.widthAt i) = widthMask f.width := by
    rw [BitVec.allOnes_and, Layout.widthAt, found]
    rfl
  have reached : writableIndex layout offset side =
      if f.access.writableBy side then .ok i
      else if f.access = .readOnly then .error (.readOnly f.name)
      else .error (.wrongSide f.name side) := by
    rw [writableIndex, leads]
    dsimp only
    rw [found]
  rw [write, writeMasked, reached]
  split
  · rw [← bits]
    rfl
  · split <;> rfl

/-- What a granted write leaves in every register. -/
theorem write_eq_ok {f : Field} (leads : layout.indexAt? offset = some i)
    (found : layout.fields[i]? = some f) (r : RegisterFile layout) (v : Word) {side : Side}
    (granted : f.access.writableBy side = true) :
    ∃ after, r.write offset v side = .ok after ∧
      after.value i = Word.merge (r.value i) v (widthMask f.width) ∧
      ∀ j, j ≠ i → after.value j = r.value j := by
  have inside : i < layout.count := (Array.getElem?_eq_some_iff.1 found).1
  refine ⟨_, by rw [write_of_indexAt? leads found, if_pos granted], ?_, fun j other => ?_⟩
  · rw [value_set, if_pos ⟨rfl, inside⟩]
  · rw [value_set, if_neg fun same => other same.1.symm]

/-- What a refused write is told. -/
theorem write_eq_error {f : Field} (leads : layout.indexAt? offset = some i)
    (found : layout.fields[i]? = some f) (r : RegisterFile layout) (v : Word) {side : Side}
    (refused : f.access.writableBy side = false) :
    r.write offset v side =
      .error (if f.access = .readOnly then .readOnly f.name else .wrongSide f.name side) := by
  rw [write_of_indexAt? leads found, refused, if_neg Bool.false_ne_true]
  split <;> rfl

end InstrumentBus.RegisterFile
