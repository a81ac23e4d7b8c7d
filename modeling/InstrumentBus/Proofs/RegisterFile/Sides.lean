import InstrumentBus.Proofs.RegisterFile.History

/-!
# Two sides that share a register file

In an exchange every register has at most one writer, so that two sides can pass values to each other
through it. A side decides alone what its registers hold: `AgreeFor.serve_issuedBy` compares a run with the
run of this side's transactions alone. The induction is on the run, and what it carries is `AgreeFor`: two
register files hold the same in the registers of one side. `sides_do_not_interfere` joins that to the
registers that nobody writes and to what the two sides read.
-/

namespace InstrumentBus

/-! ## Exchanges -/

/-- A register of an exchange. -/
structure ExchangeField where
  name : String
  /-- The side that may write the register, if any. -/
  writer : Option Side
  /-- The number of significant bits. -/
  width : Nat
deriving DecidableEq, Repr

/-- The register as a layout has it. -/
def ExchangeField.field (e : ExchangeField) : Field :=
  { name := e.name, width := e.width, access := .ofWriter e.writer }

/-- The layout of those registers of a list that can be added in turn. -/
def Layout.exchange (registers : List ExchangeField) : Layout :=
  (collect unbounded (registers.map ExchangeField.field)).1

theorem Layout.mem_exchange {registers : List ExchangeField} {i : Nat} {f : Field}
    (found : (exchange registers).fields[i]? = some f) : ∃ e ∈ registers, f = e.field := by
  have present : f ∈ (exchange registers).fields := Array.mem_of_getElem? found
  obtain ⟨e, listed, rfl⟩ := List.mem_map.1 (mem_of_mem_collect present)
  exact ⟨e, listed, rfl⟩

namespace RegisterFile

variable {layout : Layout} {side : Side}

/-! ## Runs -/

/-- The register file after transactions from the two sides. -/
def serve (r : RegisterFile layout) (ops : List (Side × Request)) : RegisterFile layout :=
  r.run (ops.map fun op => .transact op.1 op.2)

/-- The transactions of one side, in their order. -/
def issuedBy (side : Side) (ops : List (Side × Request)) : List (Side × Request) :=
  ops.filter fun op => op.1 = side

/-! ## The registers of one side -/

/-- Two register files hold the same values in the registers of `side`. -/
def AgreeFor (side : Side) (r s : RegisterFile layout) : Prop :=
  ∀ i f, layout.fields[i]? = some f → f.access = .ownedBy side → r.value i = s.value i

variable {r s t : RegisterFile layout}

theorem AgreeFor.refl (side : Side) (r : RegisterFile layout) : AgreeFor side r r :=
  fun _ _ _ _ => rfl

theorem AgreeFor.symm (agree : AgreeFor side r s) : AgreeFor side s r :=
  fun i f found owned => (agree i f found owned).symm

theorem AgreeFor.trans (first : AgreeFor side r s) (second : AgreeFor side s t) :
    AgreeFor side r t :=
  fun i f found owned => (first i f found owned).trans (second i f found owned)

/-- The same transaction changes what two files agree on in the same way: whether it takes effect does
not depend on any value, and it merges into one register. -/
theorem AgreeFor.transactFrom (agree : AgreeFor side r s) (requester : Side) (req : Request) :
    AgreeFor side (r.transactFrom requester req).2 (s.transactFrom requester req).2 := by
  intro j f found owned
  have before : r.value j = s.value j := agree j f found owned
  cases req with
  | read addr =>
    rw [transactFrom_read_state, transactFrom_read_state]
    exact before
  | write addr data lanes =>
    rw [transactFrom_write_state, transactFrom_write_state]
    cases reached : writableIndex layout addr requester with
    | error e => exact before
    | ok i =>
      simp only [value_set]
      by_cases same : i = j
      · subst same
        rw [before]
      · simp only [same, false_and, if_false]
        exact before

/-- A transaction from the other side leaves the registers of a side alone. -/
theorem AgreeFor.transactFrom_other {requester : Side} (other : requester ≠ side)
    (r : RegisterFile layout) (req : Request) :
    AgreeFor side (r.transactFrom requester req).2 r := by
  intro j f found owned
  have refused : f.access.writableBy requester = false := by
    rw [owned]
    exact decide_eq_false other.symm
  exact value_transactFrom_of_not_writableBy r found refused req

theorem AgreeFor.serve_issuedBy (agree : AgreeFor side r s) (ops : List (Side × Request)) :
    AgreeFor side (r.serve ops) (s.serve (issuedBy side ops)) := by
  induction ops generalizing r s with
  | nil => exact agree
  | cons op rest ih =>
    -- A transaction of this side happens in both runs, one of the other side only in the first.
    by_cases own : op.1 = side
    · have kept : issuedBy side (op :: rest) = op :: issuedBy side rest := by
        simp [issuedBy, own]
      rw [kept]
      exact ih (agree.transactFrom op.1 op.2)
    · have dropped : issuedBy side (op :: rest) = issuedBy side rest := by
        simp [issuedBy, own]
      rw [dropped]
      exact ih ((AgreeFor.transactFrom_other own r op.2).trans agree)

/-- A side's registers hold what the transactions of this side alone would have made of them. -/
theorem agreeFor_of_issuedBy_eq (r : RegisterFile layout) {xs ys : List (Side × Request)}
    (same : issuedBy side xs = issuedBy side ys) : AgreeFor side (r.serve xs) (r.serve ys) := by
  have left := (AgreeFor.refl side r).serve_issuedBy xs
  have right := (AgreeFor.refl side r).serve_issuedBy ys
  rw [same] at left
  exact left.trans right.symm

/-! ## Registers without a writer -/

theorem value_serve_of_readOnly {i : Nat} {f : Field} (found : layout.fields[i]? = some f)
    (fixed : f.access = .readOnly) (r : RegisterFile layout) (ops : List (Side × Request)) :
    (r.serve ops).value i = r.value i := by
  induction ops generalizing r with
  | nil => rfl
  | cons op rest ih =>
    have refused : f.access.writableBy op.1 = false := by
      rw [fixed]
      rfl
    show ((r.transactFrom op.1 op.2).2.serve rest).value i = r.value i
    rw [ih, value_transactFrom_of_not_writableBy r found refused op.2]

/-! ## What a side reads -/

/-- In an exchange, however the transactions of the two sides are interleaved, a register that a side
writes ends with the same value in any two runs with the same transactions of that side, a register
without a writer stays zero, and both sides read of every register the value that it holds. -/
theorem sides_do_not_interfere (registers : List ExchangeField) (xs ys : List (Side × Request))
    (i : Nat) (f : Field) (found : (Layout.exchange registers).fields[i]? = some f) :
    ∃ e ∈ registers, f = e.field ∧
      (∀ side, e.writer = some side → issuedBy side xs = issuedBy side ys →
        ((zero (Layout.exchange registers)).serve xs).value i =
          ((zero (Layout.exchange registers)).serve ys).value i) ∧
      (e.writer = none → ((zero (Layout.exchange registers)).serve xs).value i = 0) ∧
      ∀ reader,
        (((zero (Layout.exchange registers)).serve xs).transactFrom reader
          (.read (Layout.offset i))).1 =
          .acked (((zero (Layout.exchange registers)).serve xs).value i) := by
  obtain ⟨e, listed, rfl⟩ := Layout.mem_exchange found
  refine ⟨e, listed, rfl, ?_, ?_, ?_⟩
  · intro side writes same
    have owned : e.field.access = .ownedBy side := by
      simp only [ExchangeField.field, writes, Access.ofWriter]
    exact agreeFor_of_issuedBy_eq _ same i e.field found owned
  · intro unwritten
    have fixed : e.field.access = .readOnly := by
      simp only [ExchangeField.field, unwritten, Access.ofWriter]
    rw [value_serve_of_readOnly found fixed, value_zero]
  · intro reader
    have sound : (Layout.exchange registers).Sound := Layout.sound_collect _ _
    have inside : i < (Layout.exchange registers).count := (Array.getElem?_eq_some_iff.1 found).1
    exact transactFrom_read_of_indexAt? (sound.indexAt?_offset inside) _ reader

/-- The co-processor tries to overwrite the setpoint in one run and reports a position in the other; the
setpoint is what the supervisor wrote in both. -/
theorem setpoint_outlasts_attempts :
    ∃ layout, layout = Layout.exchange [⟨"setpt", some .supervisor, 32⟩, ⟨"locked", none, 8⟩,
        ⟨"zpos", some .coprocessor, 20⟩] ∧
      ((zero layout).serve [(.supervisor, .writeWord 0 1234), (.coprocessor, .writeWord 0 99)]).value
          0 = 1234 ∧
      ((zero layout).serve [(.coprocessor, .writeWord 8 7), (.supervisor, .writeWord 0 1234),
          (.coprocessor, .read 2)]).value 0 = 1234 := by
  let registers : List ExchangeField :=
    [⟨"setpt", some .supervisor, 32⟩, ⟨"locked", none, 8⟩, ⟨"zpos", some .coprocessor, 20⟩]
  have found : (Layout.exchange registers).fields[0]? =
      some ⟨"setpt", 32, .ownedBy .supervisor⟩ := by
    decide +kernel
  obtain ⟨e, listed, sameField, interference, -⟩ := sides_do_not_interfere registers
    [(.supervisor, .writeWord 0 1234), (.coprocessor, .writeWord 0 99)]
    [(.coprocessor, .writeWord 8 7), (.supervisor, .writeWord 0 1234), (.coprocessor, .read 2)]
    0 _ found
  have writes : e.writer = some .supervisor := by
    have named : "setpt" = e.name := congrArg Field.name sameField
    simp only [registers, List.mem_cons, List.not_mem_nil, or_false] at listed
    rcases listed with rfl | rfl | rfl
    · rfl
    · exact absurd named (by decide)
    · exact absurd named (by decide)
  have same := interference .supervisor writes (by decide)
  have first : ((zero (Layout.exchange registers)).serve
      [(.supervisor, .writeWord 0 1234), (.coprocessor, .writeWord 0 99)]).value 0 = 1234 := by
    decide +kernel
  exact ⟨_, rfl, first, same ▸ first⟩

end RegisterFile

end InstrumentBus
