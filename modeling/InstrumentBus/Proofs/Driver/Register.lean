import InstrumentBus.Driver.Register
import InstrumentBus.Proofs.Driver.Action
import InstrumentBus.Proofs.RegisterFile.History

/-!
# Registers of drivers and registers of the hardware

Who may write a register and how many bits it has is checked twice: by the driver before it makes an
access, and by the register file when the access arrives. `Describes` says that a reference and a place
of a layout are about the same register, and `agreesWith_of_describes` that the two checks then agree.
On a transport that carries word accesses to a register file, a driver's `set` and `get` come to the
`write` and the `read` of this register file (`Transport.Carries.actsOn`).
-/

namespace InstrumentBus

theorem Side.eq_opposite_of_ne {a b : Side} (other : a ≠ b) : a = b.opposite := by
  cases a with
  | supervisor =>
    cases b with
    | supervisor => exact absurd rfl other
    | coprocessor => rfl
  | coprocessor =>
    cases b with
    | supervisor => rfl
    | coprocessor => exact absurd rfl other

/-- The driver tells of the violation for which the register file refuses a write. -/
inductive DriverError.SameViolation : WriteError → DriverError → Prop
  | readOnly (name register : String) : SameViolation (.readOnly name) (.readOnly register)
  | wrongSide (name register : String) (side : Side) :
    SameViolation (.wrongSide name side) (.wrongSide register side.opposite)

variable {τ : Type} [Transport τ] {layout : Layout}

/-- Word accesses at `addr` are transactions of `side` with the register file `r` at `offset`, and
`around` puts what becomes of the register file back into the transport. -/
structure Transport.Carries (t : τ) (addr : Addr) (side : Side) (r : RegisterFile layout)
    (offset : Addr) (around : RegisterFile layout → τ) : Prop where
  read : Transport.readWord t addr =
    (.ok (r.transactFrom side (.read offset)).1.data,
      around (r.transactFrom side (.read offset)).2)
  write : ∀ w, Transport.writeWord t addr w =
    (.ok (), around (r.transactFrom side (.writeWord offset w)).2)

namespace RegisterRef

/-- A reference is about the register `f`, in place `i` of a layout. -/
structure Describes (ref : RegisterRef) (layout : Layout) (offset : Addr) (i : Nat) (f : Field) :
    Prop where
  leads : layout.indexAt? offset = some i
  found : layout.fields[i]? = some f
  width : ref.width = f.width
  access : ref.access = f.access

/-- The driver and the register file check a register alike. -/
structure AgreesWith (ref : RegisterRef) (r : RegisterFile layout) (offset : Addr) : Prop where
  granted_iff : ∀ v, ref.checkWritable = .ok () ↔ ∃ after, r.write offset v ref.side = .ok after
  refused : ∀ v refusal, r.write offset v ref.side = .error refusal →
    ∃ e, ref.checkWritable = .error e ∧ DriverError.SameViolation refusal e
  masked : ∀ v, r.write offset (v &&& widthMask ref.width) ref.side = r.write offset v ref.side
  stored : ∀ v after, r.write offset v ref.side = .ok after →
    after.read offset = .ok (v &&& widthMask ref.width)
  read : ∃ v, r.read offset = .ok v ∧ v &&& widthMask ref.width = v

/-- What a driver does on a transport comes to what the register file in it does. A write that the
register file refuses ends before any access, on whatever transport it is tried. -/
structure ActsOn (ref : RegisterRef) (t : τ) (r : RegisterFile layout) (offset : Addr)
    (around : RegisterFile layout → τ) : Prop where
  set_ok_iff : ∀ w,
    (∃ after, (ref.set w).perform t = (.ok (), after)) ↔
      ∃ after, r.write offset w ref.side = .ok after
  set_granted : ∀ w after, r.write offset w ref.side = .ok after →
    (ref.set w).perform t = (.ok (), around after)
  set_refused : ∀ w refusal, r.write offset w ref.side = .error refusal →
    ∃ e, DriverError.SameViolation refusal e ∧
      ∀ (σ : Type) [Transport σ] (s : σ), (ref.set w).perform s = (.error e, s)
  get : ∃ v, r.read offset = .ok v ∧ ref.get.perform t = (.ok v, around r)

/-! ## The two checks -/

variable {ref : RegisterRef} {offset : Addr} {i : Nat} {f : Field} {r : RegisterFile layout}

theorem checkWritable_of_granted (granted : ref.access.writableBy ref.side = true) :
    ref.checkWritable = .ok () := by
  rw [checkWritable, if_pos granted]

/-- The driver refuses as the register file does. The two look at the access mode in different order:
the one asks first for an owner, the other for a register that nobody may write. -/
theorem checkWritable_of_refused (refused : ref.access.writableBy ref.side = false)
    (name : String) :
    ∃ e, ref.checkWritable = .error e ∧
      DriverError.SameViolation
        (if ref.access = .readOnly then .readOnly name else .wrongSide name ref.side) e := by
  rw [checkWritable, refused, if_neg Bool.false_ne_true]
  cases mode : ref.access with
  | readOnly => exact ⟨_, rfl, .readOnly name ref.name⟩
  | readWrite =>
    rw [mode] at refused
    cases refused
  | ownedBy owner =>
    rw [mode] at refused
    have other : owner = ref.side.opposite := Side.eq_opposite_of_ne (beq_eq_false_iff_ne.1 refused)
    refine ⟨_, rfl, ?_⟩
    rw [if_neg (by simp), other]
    exact .wrongSide name ref.name ref.side

theorem agreesWith_of_describes (describes : ref.Describes layout offset i f) (fits : r.Fits) :
    ref.AgreesWith r offset := by
  obtain ⟨leads, found, width, access⟩ := describes
  have inside : i < layout.count := (Array.getElem?_eq_some_iff.1 found).1
  constructor
  · intro v
    cases verdict : f.access.writableBy ref.side with
    | true =>
      obtain ⟨after, written, -⟩ := r.write_eq_ok leads found v verdict
      exact iff_of_true (checkWritable_of_granted (access ▸ verdict)) ⟨after, written⟩
    | false =>
      obtain ⟨e, error, -⟩ := checkWritable_of_refused (access ▸ verdict) f.name
      rw [error, r.write_eq_error leads found v verdict]
      simp
  · intro v refusal refused
    cases verdict : f.access.writableBy ref.side with
    | true =>
      obtain ⟨after, written, -⟩ := r.write_eq_ok leads found v verdict
      rw [written] at refused
      cases refused
    | false =>
      rw [r.write_eq_error leads found v verdict] at refused
      cases refused
      rw [← access]
      exact checkWritable_of_refused (access ▸ verdict) f.name
  · intro v
    rw [width]
    exact RegisterFile.write_and_widthMask leads found r v ref.side
  · intro v after written
    rw [RegisterFile.write_of_indexAt? leads found] at written
    split at written
    · cases written
      rw [RegisterFile.read_of_indexAt? leads, RegisterFile.value_set, if_pos ⟨rfl, inside⟩,
        Word.merge_widthMask (fits.toNat_value_lt found), width]
    · split at written <;> cases written
  · refine ⟨r.value i, RegisterFile.read_of_indexAt? leads r, ?_⟩
    rw [width, fits.value_and_widthMask found]

/-! ## What a driver does -/

theorem perform_set_of_refused {e : DriverError} (refused : ref.checkWritable = .error e) (w : Word)
    (t : τ) : (ref.set w).perform t = (.error e, t) := by
  apply Action.perform_bind_of_error
  rw [Action.perform_ofExcept, refused]

theorem perform_set_of_granted (granted : ref.checkWritable = .ok ()) {w : Word} {t after : τ}
    (written : Transport.writeWord t ref.addr (w &&& widthMask ref.width) = (.ok (), after)) :
    (ref.set w).perform t = (.ok (), after) := by
  have passed : (Action.ofExcept ref.checkWritable).perform t = (.ok (), t) := by
    rw [Action.perform_ofExcept, granted]
  exact (Action.perform_bind_of_ok passed _).trans (Action.perform_ofAccess_of_ok written)

theorem perform_get_of_readWord {t after : τ} {w : Word}
    (readWord : Transport.readWord t ref.addr = (.ok w, after)) :
    ref.get.perform t = (.ok (w &&& widthMask ref.width), after) := by
  exact Action.perform_bind_of_ok (Action.perform_ofAccess_of_ok readWord) _

end RegisterRef

open RegisterRef in
/-- A register that is carried to a register file is set and read as the register file writes and reads
it. -/
theorem Transport.Carries.actsOn {ref : RegisterRef} {offset : Addr} {i : Nat} {f : Field}
    {r : RegisterFile layout} {t : τ} {around : RegisterFile layout → τ}
    (carries : Transport.Carries t ref.addr ref.side r offset around)
    (describes : ref.Describes layout offset i f) (fits : r.Fits) :
    ref.ActsOn t r offset around := by
  have agrees := agreesWith_of_describes describes fits
  have granted : ∀ w after, r.write offset w ref.side = .ok after →
      (ref.set w).perform t = (.ok (), around after) := by
    intro w after written
    apply perform_set_of_granted ((agrees.granted_iff w).2 ⟨after, written⟩)
    rw [carries.write, RegisterFile.transactFrom_writeWord, agrees.masked, written]
  have refused : ∀ w refusal, r.write offset w ref.side = .error refusal →
      ∃ e, DriverError.SameViolation refusal e ∧
        ∀ (σ : Type) [Transport σ] (s : σ), (ref.set w).perform s = (.error e, s) := by
    intro w refusal written
    obtain ⟨e, error, same⟩ := agrees.refused w refusal written
    exact ⟨e, same, fun σ _ s => perform_set_of_refused error w s⟩
  refine ⟨fun w => ?_, granted, refused, ?_⟩
  · cases written : r.write offset w ref.side with
    | ok after => exact iff_of_true ⟨_, granted w after written⟩ ⟨after, rfl⟩
    | error refusal =>
      obtain ⟨e, -, performed⟩ := refused w refusal written
      rw [performed τ t]
      simp
  · obtain ⟨v, reads, cut⟩ := agrees.read
    have answer : r.transactFrom ref.side (.read offset) = (.acked v, r) := by
      simp only [RegisterFile.transactFrom, reads]
    refine ⟨v, reads, ?_⟩
    have readWord := carries.read
    rw [answer] at readWord
    rw [perform_get_of_readWord readWord]
    exact congrArg (fun w => (Except.ok w, around r)) cut

end InstrumentBus
