import InstrumentBus.Proofs.RegisterFile.History
import InstrumentBus.ControlLoop.Engine

/-!
# The command block as a store

Seen from outside, the command block is a store with one value for each parameter: it carries out at most
one order in a step and then counts the step if the loop runs. `Engine.due` reads off the registers which
order that is, and `Engine.parameter_tick` says that a step of the block is a step of the store.
-/

namespace InstrumentBus.ControlLoop

/-! ## Orders -/

/-- What a call asks of the block. -/
inductive Order where
  | read (c : Command)
  | write (c : Command) (v : Value)
deriving DecidableEq, Repr

namespace Order

/-- The parameter that an order is about. -/
def command : Order → Command
  | .read c => c
  | .write c _ => c

/-- The opcode that asks for an order. -/
def opcode : Order → Word
  | .read c => c.readOpcode
  | .write c _ => c.writeOpcode

/-- The value that goes with an order. -/
def operand : Order → Value
  | .read _ => 0
  | .write _ v => v

/-- The order in an opcode and a value, if the opcode names a command. -/
def ofOpcode? (op : Word) (v : Value) : Option Order :=
  (Command.ofOpcode? op).map fun c => if op &&& Command.writeBit ≠ 0 then .write c v else .read c

theorem ofOpcode?_opcode (o : Order) : ofOpcode? o.opcode o.operand = some o := by
  have reads (c : Command) : Command.ofOpcode? c.readOpcode = some c ∧
      c.readOpcode &&& Command.writeBit = 0 := by
    cases c <;> decide
  have writes (c : Command) : Command.ofOpcode? c.writeOpcode = some c ∧
      c.writeOpcode &&& Command.writeBit ≠ 0 := by
    cases c <;> decide
  cases o with
  | read c =>
    obtain ⟨named, reading⟩ := reads c
    rw [ofOpcode?, opcode, operand, named, Option.map_some, if_neg (not_not_intro reading)]
  | write c v =>
    obtain ⟨named, writing⟩ := writes c
    rw [ofOpcode?, opcode, operand, named, Option.map_some, if_pos writing]

/-- An opcode fits its register. -/
theorem opcode_and_widthMask (o : Order) : o.opcode &&& widthMask 8 = o.opcode := by
  have reads (c : Command) : c.readOpcode &&& widthMask 8 = c.readOpcode := by
    cases c <;> decide
  have writes (c : Command) : c.writeOpcode &&& widthMask 8 = c.writeOpcode := by
    cases c <;> decide
  cases o with
  | read c => exact reads c
  | write c v => exact writes c

end Order

/-! ## Stores -/

/-- The values of the parameters. -/
abbrev Store := Command → Value

namespace Store

/-- The store with one value set. -/
def set (s : Store) (c : Command) (v : Value) : Store :=
  fun d => if d = c then v else s d

/-- The store after an order; a write of the status also resets the count. -/
def carryOut (s : Store) : Order → Store
  | .read _ => s
  | .write c v => if c = .status then (s.set c v).set .cycles 0 else s.set c v

/-- What an order is answered: the value that its parameter has then. -/
def answer (s : Store) (o : Order) : Value :=
  s.carryOut o o.command

/-- The store after it counted a step, which it does while the status is not zero. -/
def count (s : Store) : Store :=
  if s .status = 0 then s else s.set .cycles (s .cycles + 1)

/-- The store after a step in which an order falls due, or none. -/
def step (s : Store) : Option Order → Store
  | none => s.count
  | some o => (s.carryOut o).count

/-- The store after several steps. -/
def run (s : Store) (steps : List (Option Order)) : Store :=
  steps.foldl step s

/-- What the orders that fall due in several steps are answered, in turn. -/
def answers (s : Store) : List (Option Order) → List Value
  | [] => []
  | none :: steps => (s.step none).answers steps
  | some o :: steps => s.answer o :: (s.step (some o)).answers steps

theorem run_concat (s : Store) (steps : List (Option Order)) (due : Option Order) :
    s.run (steps ++ [due]) = (s.run steps).step due :=
  List.foldl_concat ..

theorem answers_concat (s : Store) (steps : List (Option Order)) (due : Option Order) :
    s.answers (steps ++ [due]) = s.answers steps ++ (due.map (s.run steps).answer).toList := by
  induction steps generalizing s with
  | nil => cases due <;> rfl
  | cons first steps ih =>
    cases first with
    | none => exact ih _
    | some o => exact congrArg (s.answer o :: ·) (ih _)

/-- A write is answered with the value that was written. -/
theorem answer_write (s : Store) (c : Command) (v : Value) : s.answer (.write c v) = v := by
  have other : c = .status → c ≠ .cycles := by
    rintro rfl
    decide
  simp only [answer, carryOut, Order.command]
  split
  · next status => rw [set, if_neg (other status), set, if_pos rfl]
  · rw [set, if_pos rfl]

/-- Among the orders that fall due, a write is answered with the value that was written. -/
theorem answers_of_write (s : Store) {steps : List (Option Order)} {n : Nat} {c : Command} {v : Value}
    (asked : (steps.filterMap id)[n]? = some (.write c v)) : (s.answers steps)[n]? = some v := by
  induction steps generalizing s n with
  | nil => cases asked
  | cons first steps ih =>
    cases first with
    | none => exact ih _ asked
    | some o =>
      cases n with
      | zero =>
        obtain rfl : o = .write c v := Option.some.inj asked
        exact congrArg some (s.answer_write c v)
      | succ n => exact ih _ asked

/-- The count grows by one in every step with a status that is not zero, up to the largest number. -/
theorem toInt_count (s : Store) (room : (s .cycles).toInt < 2 ^ 63 - 1) :
    (s.count .cycles).toInt = (s .cycles).toInt + if s .status = 0 then 0 else 1 := by
  unfold count
  split
  · exact (Int.add_zero _).symm
  · rw [set, if_pos rfl, BitVec.toInt_add]
    have least := (s .cycles).le_toInt
    have one : (1 : Value).toInt = 1 := rfl
    rw [one, Int.bmod_eq_of_le] <;> omega

theorem count_of_ne (s : Store) {c : Command} (other : c ≠ .cycles) : s.count c = s c := by
  unfold count
  split
  · rfl
  · exact if_neg other

end Store

/-! ## The halves of a value -/

@[simp]
theorem Value.ofHalves_high_low (v : Value) : Value.ofHalves v.high v.low = v := by
  unfold ofHalves high low
  ext i
  simp only [BitVec.getElem_append, BitVec.getElem_setWidth, BitVec.getLsbD_ushiftRight]
  split
  · exact BitVec.getLsbD_eq_getElem _
  · next upper =>
    rw [show 32 + (i - 32) = i by omega]
    exact BitVec.getLsbD_eq_getElem _

/-! ## Steps of the block -/

namespace Engine

variable {e : Engine} {o : Order} {i : Nat}

/-- The order that the next step of the block carries out. -/
def due (e : Engine) : Option Order :=
  if e.registers.value start = 1 ∧ e.registers.value finish ≠ 1 then
    Order.ofOpcode? (e.registers.value opcode)
      (Value.ofHalves (e.registers.value inHigh) (e.registers.value inLow))
  else none

theorem parameter_setParameter (e : Engine) (c : Command) (v : Value) :
    (e.setParameter c v).parameter = Store.set e.parameter c v := by
  have inside : c.slot < 8 := by cases c <;> decide
  funext d
  have same : c.slot = d.slot ↔ d = c := by cases c <;> cases d <;> decide
  simp only [parameter, setParameter, Store.set, Vector.getElem?_setIfInBounds, same, inside, if_true]
  split <;> rfl

theorem parameter_assign (e : Engine) (c : Command) (v : Value) :
    (e.assign c v).parameter = Store.carryOut e.parameter (.write c v) := by
  simp only [assign, Store.carryOut]
  split
  · rw [parameter_setParameter, parameter_setParameter]
  · exact parameter_setParameter e c v

theorem registers_assign (e : Engine) (c : Command) (v : Value) :
    (e.assign c v).registers = e.registers := by
  unfold assign
  split <;> rfl

theorem value_respond (e : Engine) (v : Value) (i : Nat) :
    (e.respond v).registers.value i =
      if i = finish then 1 else if i = outLow then v.low else if i = outHigh then v.high
      else e.registers.value i := by
  simp only [respond]
  by_cases last : i = finish
  · subst last
    exact RegisterFile.value_drive_self _ (by decide) 1
  rw [if_neg last, RegisterFile.value_drive_of_ne _ (Ne.symm last)]
  by_cases lower : i = outLow
  · subst lower
    exact (RegisterFile.value_drive_self _ (by decide) v.low).trans (and_widthMask_word _)
  rw [if_neg lower, RegisterFile.value_drive_of_ne _ (Ne.symm lower)]
  by_cases upper : i = outHigh
  · subst upper
    exact (RegisterFile.value_drive_self _ (by decide) v.high).trans (and_widthMask_word _)
  rw [if_neg upper, RegisterFile.value_drive_of_ne _ (Ne.symm upper)]

/-- The block responds to an order with its answer; an opcode without a command is answered with zero. -/
theorem execute_eq (e : Engine) :
    ∃ after : Engine, after.registers = e.registers ∧
      ((Order.ofOpcode? (e.registers.value opcode)
          (Value.ofHalves (e.registers.value inHigh) (e.registers.value inLow)) = none ∧
        after.parameter = e.parameter ∧ e.execute = after.respond 0) ∨
      ∃ o, Order.ofOpcode? (e.registers.value opcode)
          (Value.ofHalves (e.registers.value inHigh) (e.registers.value inLow)) = some o ∧
        after.parameter = Store.carryOut e.parameter o ∧
        e.execute = after.respond (Store.answer e.parameter o)) := by
  simp only [execute, Order.ofOpcode?]
  cases named : Command.ofOpcode? (e.registers.value opcode) with
  | none => exact ⟨e, rfl, .inl ⟨rfl, rfl, rfl⟩⟩
  | some c =>
    dsimp only [Option.map_some]
    split
    · refine ⟨e.assign c _, registers_assign e c _, .inr ⟨_, rfl, parameter_assign e c _, ?_⟩⟩
      rw [parameter_assign]
      rfl
    · exact ⟨e, rfl, .inr ⟨_, rfl, rfl, rfl⟩⟩

/-! ### The handshake -/

theorem handshake_eq (e : Engine) : e.handshake =
    if e.registers.value start = 1 ∧ e.registers.value finish ≠ 1 then e.execute
    else if e.registers.value start ≠ 1 ∧ e.registers.value finish = 1 then
      { e with registers := e.registers.drive finish 0 }
    else e := by
  simp only [handshake, Bool.and_eq_true, Bool.not_eq_true', beq_iff_eq, beq_eq_false_iff_ne]

theorem handshake_of_starts (starts : e.registers.value start = 1) (fresh : e.registers.value finish ≠ 1) :
    e.handshake = e.execute := by
  rw [handshake_eq, if_pos ⟨starts, fresh⟩]

theorem handshake_of_held (starts : e.registers.value start = 1) (answered : e.registers.value finish = 1) :
    e.handshake = e := by
  rw [handshake_eq, if_neg fun fresh => fresh.2 answered, if_neg fun released => released.1 starts]

theorem handshake_of_released (released : e.registers.value start ≠ 1)
    (answered : e.registers.value finish = 1) :
    e.handshake = { e with registers := e.registers.drive finish 0 } := by
  rw [handshake_eq, if_neg fun starts => released starts.1, if_pos ⟨released, answered⟩]

theorem handshake_of_rests (released : e.registers.value start ≠ 1)
    (fresh : e.registers.value finish ≠ 1) : e.handshake = e := by
  rw [handshake_eq, if_neg fun starts => released starts.1, if_neg fun answered => fresh answered.2]

/-! ### The count -/

theorem value_count (e : Engine) (other : i ≠ inLoop) :
    e.count.registers.value i = e.registers.value i := by
  unfold count
  split <;> exact RegisterFile.value_drive_of_ne _ other.symm _

theorem parameter_count (e : Engine) : e.count.parameter = Store.count e.parameter := by
  by_cases rests : e.parameter .status = 0
  · simp only [count, running, Store.count, rests, bne_self_eq_false, Bool.false_eq_true, if_false, if_true]
    rfl
  · simp only [count, running, Store.count, if_neg rests, bne_iff_ne.2 rests, if_true]
    exact parameter_setParameter _ _ _

/-! ### Whole steps -/

/-- The handshake carries out the order that falls due, and nothing else. -/
theorem parameter_handshake (e : Engine) :
    e.handshake.parameter = e.due.elim e.parameter (Store.carryOut e.parameter) := by
  by_cases starts : e.registers.value start = 1
  · by_cases answered : e.registers.value finish = 1
    · rw [handshake_of_held starts answered, due, if_neg fun fresh => fresh.2 answered]
      rfl
    · rw [handshake_of_starts starts answered, due, if_pos ⟨starts, answered⟩]
      obtain ⟨after, -, ⟨unknown, same, executed⟩ | ⟨o, asked, same, executed⟩⟩ := e.execute_eq
      · rw [executed, unknown]
        exact same
      · rw [executed, asked]
        exact same
  · rw [due, if_neg fun both => starts both.1]
    by_cases answered : e.registers.value finish = 1
    · rw [handshake_of_released starts answered]
      rfl
    · rw [handshake_of_rests starts answered]
      rfl

/-- A step of the block is a step of the store. -/
theorem parameter_tick (e : Engine) : e.tick.parameter = Store.step e.parameter e.due := by
  rw [tick, parameter_count, parameter_handshake]
  cases e.due <;> rfl

/-- The block does not write to what the bus may write to. -/
theorem value_tick_of_lt (e : Engine) (input : i < 4) :
    e.tick.registers.value i = e.registers.value i := by
  have other {j : Nat} (output : 4 ≤ j) : i ≠ j := by omega
  rw [tick, value_count _ (other (by decide))]
  by_cases starts : e.registers.value start = 1
  · by_cases answered : e.registers.value finish = 1
    · rw [handshake_of_held starts answered]
    · rw [handshake_of_starts starts answered]
      obtain ⟨after, same, ⟨-, -, executed⟩ | ⟨o, -, -, executed⟩⟩ := e.execute_eq
      all_goals
        rw [executed, value_respond, if_neg (other (by decide)), if_neg (other (by decide)),
          if_neg (other (by decide)), same]
  · by_cases answered : e.registers.value finish = 1
    · rw [handshake_of_released starts answered]
      exact RegisterFile.value_drive_of_ne _ (other (by decide)).symm 0
    · rw [handshake_of_rests starts answered]

/-- The answer stands as long as the handshake is not released. -/
theorem value_tick_of_held (starts : e.registers.value start = 1)
    (answered : e.registers.value finish = 1) (other : i ≠ inLoop) :
    e.tick.registers.value i = e.registers.value i := by
  rw [tick, value_count _ other, handshake_of_held starts answered]

/-- A block that was released is ready for the next order after one step. -/
theorem value_finish_tick_of_released (released : e.registers.value start ≠ 1)
    (fits : e.registers.Fits) : e.tick.registers.value finish = 0 := by
  rw [tick, value_count _ (by decide)]
  by_cases answered : e.registers.value finish = 1
  · rw [handshake_of_released released answered]
    exact RegisterFile.value_drive_self _ (by decide) 0
  · rw [handshake_of_rests released answered]
    have narrow : (e.registers.value finish).toNat < 2 ^ 1 := fits finish
    exact BitVec.eq_of_toNat_eq (show (e.registers.value finish).toNat = 0 by
      have other : (e.registers.value finish).toNat ≠ 1 := fun one => answered (BitVec.eq_of_toNat_eq one)
      omega)

/-- An order that falls due is answered in that step. -/
theorem value_tick_of_due (asked : e.due = some o) :
    e.tick.registers.value finish = 1 ∧
      e.tick.registers.value outHigh = (Store.answer e.parameter o).high ∧
      e.tick.registers.value outLow = (Store.answer e.parameter o).low := by
  unfold due at asked
  split at asked
  · next fresh =>
    simp only [tick, value_count _ (show finish ≠ inLoop by decide),
      value_count _ (show outHigh ≠ inLoop by decide), value_count _ (show outLow ≠ inLoop by decide),
      handshake_of_starts fresh.1 fresh.2]
    obtain ⟨after, -, ⟨unknown, -⟩ | ⟨o', same, -, executed⟩⟩ := e.execute_eq
    · rw [asked] at unknown
      cases unknown
    · rw [asked] at same
      cases same
      rw [executed]
      exact ⟨value_respond _ _ _, value_respond _ _ _, value_respond _ _ _⟩
  · cases asked

theorem due_of_not_starts (released : e.registers.value start ≠ 1) : e.due = none :=
  if_neg fun both => released both.1

theorem due_of_answered (answered : e.registers.value finish = 1) : e.due = none :=
  if_neg fun both => both.2 answered

theorem fits_tick (fits : e.registers.Fits) : e.tick.registers.Fits := by
  have driven (r : RegisterFile layout) (kept : r.Fits) (j : Nat) (w : Word) : (r.drive j w).Fits :=
    kept.step (.drive j w)
  have shaken : e.handshake.registers.Fits := by
    rw [handshake_eq]
    split
    · obtain ⟨after, same, ⟨-, -, executed⟩ | ⟨o, -, -, executed⟩⟩ := e.execute_eq
      all_goals
        rw [executed]
        exact driven _ (driven _ (driven _ (same ▸ fits) _ _) _ _) _ _
    · split
      · exact driven _ fits _ _
      · exact fits
  unfold tick count
  split <;> exact driven _ shaken _ _

/-! ### Transactions -/

theorem registers_transact (e : Engine) (req : Request) :
    (e.transact req).2.registers = (e.registers.transactFrom .supervisor req).2 :=
  rfl

theorem parameter_transact (e : Engine) (req : Request) : (e.transact req).2.parameter = e.parameter :=
  rfl

theorem transact_read {i : Nat} (inside : i < layout.count) (e : Engine) :
    e.transact (.read (Layout.offset i)) = (.acked (e.registers.value i), e) := by
  have sound : layout.Sound := by decide
  rw [transact, RegisterFile.transactFrom_read_offset sound inside]

theorem fits_transact (fits : e.registers.Fits) (req : Request) : (e.transact req).2.registers.Fits := by
  rw [registers_transact]
  exact fits.step (.transact .supervisor req)

end Engine

end InstrumentBus.ControlLoop
