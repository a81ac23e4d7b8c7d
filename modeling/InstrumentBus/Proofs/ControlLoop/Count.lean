import InstrumentBus.Proofs.Word.Window
import InstrumentBus.Proofs.Bus.History
import InstrumentBus.Proofs.ControlLoop.Leftover

/-!
# The count of steps

The block counts the steps of a running loop in a parameter that a command may set to any number. Whatever
happened before, the count follows from the number that it was set to last and from the steps since
(`Tally`), because a command that stops or starts the loop sets it, too. So the step in which the count
passes the largest number is known from the commands alone (`increment_overflows_iff`).
-/

namespace InstrumentBus.ControlLoop

open Input (after)

/-! ## Orders that set the count -/

/-- The number that an order puts in the count, if it does. A write of the status puts in zero. -/
def Order.countSet? : Order → Option Value
  | .write .cycles v => some v
  | .write .status _ => some 0
  | _ => none

theorem Order.eq_of_countSet? {o : Order} {v : Value} (sets : o.countSet? = some v) :
    o = .write .cycles v ∨ v = 0 := by
  unfold countSet? at sets
  split at sets
  · cases sets
    exact .inl rfl
  · cases sets
    exact .inr rfl
  · cases sets

namespace Store

variable {s : Store} {o : Order} {v : Value}

theorem carryOut_of_countSet? (sets : o.countSet? = some v) : s.carryOut o .cycles = v := by
  unfold Order.countSet? at sets
  split at sets
  · cases sets
    simp [carryOut, set]
  · cases sets
    simp [carryOut, set]
  · cases sets

/-- An order that does not set the count leaves the status, too. -/
theorem carryOut_of_not_countSet? (leaves : o.countSet? = none) :
    s.carryOut o .cycles = s .cycles ∧ s.carryOut o .status = s .status := by
  cases o with
  | read c => exact ⟨rfl, rfl⟩
  | write c v =>
    cases c with
    | status => cases leaves
    | cycles => cases leaves
    | _ => simp [carryOut, set]

theorem cycles_count (s : Store) :
    s.count .cycles = s .cycles + if s .status = 0 then 0 else 1 := by
  unfold count
  split
  · exact (BitVec.add_zero _).symm
  · simp [set]

theorem status_count (s : Store) : s.count .status = s .status :=
  s.count_of_ne (by decide)

end Store

/-- A value that is incremented some times is the sum, but for multiples of `2 ^ 64`. -/
theorem Value.toInt_add_ofNat (v : Value) (n : Nat) :
    (v + BitVec.ofNat 64 n).toInt % 2 ^ 64 = (v.toInt + n) % 2 ^ 64 := by
  rw [BitVec.toInt_add, BitVec.toInt_ofNat', Int.add_bmod_bmod]
  exact Int.bmod_emod

/-! ## Tallies -/

/-- The number that was put in the count last, and the number of steps since. -/
structure Tally where
  base : Value
  steps : Nat
deriving DecidableEq, Repr

namespace Tally

/-- The tally of no step at all. -/
def zero : Tally :=
  { base := 0, steps := 0 }

/-- The tally after a step in which an order falls due, or none. -/
def step (t : Tally) (due : Option Order) : Tally :=
  match due.bind Order.countSet? with
  | some v => { base := v, steps := 1 }
  | none => { t with steps := t.steps + 1 }

/-- The tally after several steps. -/
def run (t : Tally) (steps : List (Option Order)) : Tally :=
  steps.foldl step t

theorem run_concat (t : Tally) (steps : List (Option Order)) (due : Option Order) :
    t.run (steps ++ [due]) = (t.run steps).step due :=
  List.foldl_concat ..

theorem step_steps_pos (t : Tally) (due : Option Order) : 0 < (t.step due).steps := by
  unfold step
  split <;> simp

/-- The sum of both numbers, which has no bounds. -/
def total (t : Tally) : Int :=
  t.base.toInt + t.steps

/-- The sum only comes to the number after the largest one from below. -/
theorem le_total {t : Tally} (counted : 0 < t.steps) (ended : t.total % 2 ^ 64 = 2 ^ 63) :
    2 ^ 63 ≤ t.total := by
  have least := t.base.le_toInt
  rw [total] at ended ⊢
  omega

/-- The count of a store is what a tally says: the sum if the loop runs, else the number that was put in. -/
def Counts (t : Tally) (s : Store) : Prop :=
  s .cycles = t.base + if s .status = 0 then 0 else BitVec.ofNat 64 t.steps

variable {t : Tally} {s : Store}

theorem counts_zero (stopped : s .status = 0) (fresh : s .cycles = 0) : zero.Counts s := by
  simp [Counts, zero, stopped, fresh]

/-- The step that sets the count is counted already if the loop runs. -/
theorem Counts.of_set {v : Value} (set : s .cycles = v) : Tally.Counts ⟨v, 1⟩ s.count := by
  rw [Counts, Store.cycles_count, Store.status_count, set]
  rfl

theorem Counts.of_kept (counts : t.Counts s) : Tally.Counts ⟨t.base, t.steps + 1⟩ s.count := by
  rw [Counts, Store.cycles_count, Store.status_count, show s .cycles = _ from counts]
  split
  · simp
  · rw [BitVec.ofNat_add, BitVec.add_assoc]
    rfl

/-- A step of the store is a step of its tally. -/
theorem Counts.step (counts : t.Counts s) (due : Option Order) : (t.step due).Counts (s.step due) := by
  cases due with
  | none => exact counts.of_kept
  | some o =>
    cases sets : o.countSet? with
    | some v =>
      have ended : t.step (some o) = ⟨v, 1⟩ := by simp [Tally.step, sets]
      rw [ended]
      exact Counts.of_set (Store.carryOut_of_countSet? sets)
    | none =>
      have ended : t.step (some o) = ⟨t.base, t.steps + 1⟩ := by simp [Tally.step, sets]
      obtain ⟨cycles, status⟩ := Store.carryOut_of_not_countSet? (s := s) sets
      have kept : t.Counts (s.carryOut o) := by
        rw [Counts, cycles, status]
        exact counts
      rw [ended]
      exact kept.of_kept

theorem Counts.run (counts : t.Counts s) (steps : List (Option Order)) :
    (t.run steps).Counts (s.run steps) := by
  induction steps generalizing t s with
  | nil => exact counts
  | cons due steps ih => exact ih (counts.step due)

/-- The number that was put in last is one that a write of the count put in, or zero. -/
theorem base_run (start : t.base = 0) (steps : List (Option Order)) :
    (t.run steps).base = 0 ∨ some (.write .cycles (t.run steps).base) ∈ steps := by
  induction steps using List.reverseRecOn with
  | nil => exact .inl start
  | append_singleton steps due ih =>
    rw [run_concat]
    cases sets : due.bind Order.countSet? with
    | none =>
      have kept : ((t.run steps).step due).base = (t.run steps).base := by simp [step, sets]
      rw [kept]
      exact ih.imp_right (List.mem_append_left _)
    | some v =>
      have put : ((t.run steps).step due).base = v := by simp [step, sets]
      rw [put]
      obtain ⟨o, rfl, by_order⟩ := Option.bind_eq_some_iff.1 sets
      rcases Order.eq_of_countSet? by_order with rfl | rfl
      · exact .inr (List.mem_append_right _ (List.mem_singleton.2 rfl))
      · exact .inl rfl

theorem steps_run_le (t : Tally) (steps : List (Option Order)) :
    (t.run steps).steps ≤ t.steps + steps.length := by
  induction steps using List.reverseRecOn with
  | nil => exact Nat.le_refl _
  | append_singleton steps due ih =>
    have last : ((t.run steps).step due).steps ≤ (t.run steps).steps + 1 := by
      unfold step
      split <;> simp
    rw [run_concat, List.length_append]
    exact last.trans (Nat.succ_le_succ ih)

end Tally

/-! ## Histories of the block -/

namespace Engine

theorem fits_after {e : Engine} (fits : e.registers.Fits) (inputs : List (Input Unit)) :
    (after e inputs).registers.Fits := by
  have bus : Target.Keeps fun e : Engine => e.registers.Fits := fun _ req fits => fits_transact fits req
  have steps : Moving.Keeps Unit fun e : Engine => e.registers.Fits := fun _ _ fits => fits_tick fits
  exact Input.after_keeps bus steps fits inputs

/-- The orders that fall due in the steps of a history, which may be none in a step. -/
def ordersDue (e : Engine) (inputs : List (Input Unit)) : List (Option Order) :=
  Input.seen due e inputs

/-- The block holds what a store holds that takes these steps. -/
theorem parameter_after (e : Engine) (inputs : List (Input Unit)) :
    (after e inputs).parameter = Store.run e.parameter (e.ordersDue inputs) :=
  Input.fold_after (P := fun _ => True) (fun e req _ => ⟨trivial, e.parameter_transact req⟩)
    (fun e _ _ => ⟨trivial, e.parameter_tick⟩) trivial inputs

/-- The tally of a history of the block from its reset on. -/
def tally (inputs : List (Input Unit)) : Tally :=
  Tally.zero.run (reset.ordersDue inputs)

theorem counts_tally (inputs : List (Input Unit)) : (tally inputs).Counts (after reset inputs).parameter := by
  have start : Tally.zero.Counts reset.parameter := Tally.counts_zero (by decide) (by decide)
  rw [parameter_after]
  exact start.run _

variable {e : Engine} {t : Tally}

/-! ## Overflows -/

/-- The next step increments the count past the largest number. -/
def Overflows (e : Engine) : Prop :=
  e.handshake.running = true ∧ 2 ^ 63 ≤ (e.handshake.parameter .cycles).toInt + 1

instance : DecidablePred Overflows :=
  fun e => inferInstanceAs (Decidable (e.handshake.running = true ∧ _))

theorem running_tick (e : Engine) : e.tick.running = e.handshake.running := by
  rw [tick, running, running, parameter_count, Store.status_count]

/-- A step overflows if the loop runs and the tally comes to the number after the largest one. -/
theorem overflows_iff_of_counts (counts : t.Counts e.tick.parameter) :
    e.Overflows ↔ e.tick.running = true ∧ t.total % 2 ^ 64 = 2 ^ 63 := by
  rw [Overflows, running_tick]
  refine and_congr_right fun runs => ?_
  have status : e.handshake.parameter .status ≠ 0 := bne_iff_ne.1 runs
  have incremented : e.handshake.parameter .cycles + 1 = t.base + BitVec.ofNat 64 t.steps := by
    rw [Tally.Counts, tick, parameter_count, Store.cycles_count, Store.status_count, if_neg status,
      if_neg status] at counts
    exact counts
  have congruent : ((e.handshake.parameter .cycles).toInt + 1) % 2 ^ 64 = t.total % 2 ^ 64 := by
    have same := congrArg (fun v : Value => v.toInt % 2 ^ 64) incremented
    exact (Value.toInt_add_ofNat _ 1).symm.trans (same.trans (Value.toInt_add_ofNat _ _))
  have least := (e.handshake.parameter .cycles).le_toInt
  have most := (e.handshake.parameter .cycles).toInt_lt
  omega

theorem counts_tally_concat_tick (past : List (Input Unit)) :
    (tally (past ++ [.tick])).Counts (after reset past).tick.parameter := by
  have counts := counts_tally (past ++ [.tick])
  rwa [Input.after_append] at counts

/-- The steps of a tally are among those of the history. -/
theorem steps_tally_le (past : List (Input Unit)) : (tally past).steps ≤ past.count .tick := by
  have bound := Tally.steps_run_le Tally.zero (reset.ordersDue past)
  rwa [ordersDue, Input.length_seen, show Tally.zero.steps = 0 from rfl, Nat.zero_add] at bound

theorem steps_tally_concat_tick_pos (past : List (Input Unit)) : 0 < (tally (past ++ [.tick])).steps := by
  rw [tally, ordersDue, Input.seen_concat_move, Tally.run_concat]
  exact Tally.step_steps_pos _ _

/-- A count that overflows was put in by a write, or grew in as many steps. -/
theorem exists_write_of_overflows {past : List (Input Unit)} (overflows : (after reset past).Overflows) :
    2 ^ 63 ≤ past.count .tick + 1 ∨
      ∃ v : Value, some (.write .cycles v) ∈ reset.ordersDue (past ++ [.tick]) ∧
        2 ^ 63 ≤ v.toInt + past.count .tick + 1 := by
  obtain ⟨-, ended⟩ := (overflows_iff_of_counts (counts_tally_concat_tick past)).1 overflows
  have reached := Tally.le_total (steps_tally_concat_tick_pos past) ended
  have most := steps_tally_le (past ++ [.tick])
  rw [List.count_append, List.count_singleton_self] at most
  have room : 2 ^ 63 ≤ (tally (past ++ [.tick])).base.toInt + past.count .tick + 1 := by
    rw [Tally.total] at reached
    omega
  rcases Tally.base_run (t := Tally.zero) rfl (reset.ordersDue (past ++ [.tick])) with zero | written
  · rw [tally, zero, show BitVec.toInt (0 : Value) = 0 from rfl] at room
    exact .inl (by omega)
  · exact .inr ⟨_, written, room⟩

end Engine

/-! ## A chosen step -/

open Engine (inHigh inLow opcode start)

/-- A master writes a word to the register in place `i`. -/
def Input.put (i : Nat) (w : Word) : Input Unit :=
  .bus (.writeWord (Layout.offset i) w)

/-- A master asks for an order. -/
def Input.ask (o : Order) : List (Input Unit) :=
  [put inHigh o.operand.high, put inLow o.operand.low, put opcode o.opcode, put start 1]

/-- A master releases the handshake and sees that it is released at both ends. -/
def Input.release : List (Input Unit) :=
  [put start 0, .tick]

/-- A master starts the loop, whatever call stands. -/
def Input.launch : List (Input Unit) :=
  release ++ ask (.write .status 1) ++ [.tick] ++ release

/-- The history in which a master starts the loop and writes the largest number to its count. -/
def Input.launchAtMost : List (Input Unit) :=
  launch ++ ask (.write .cycles (BitVec.intMax 64))

namespace Recorded

/-- The record is kept aside from the bus. -/
instance : Target Recorded where
  transact r req := (r.block.transact req).map id fun block => { r with block }

instance : Clocked Recorded where
  tick := tick

variable {s : Store} {done : List Order} {values : List Value} {r : Recorded}

theorem block_tick (r : Recorded) : r.tick.block = r.block.tick :=
  rfl

/-- The record does not change what happens to the block. -/
theorem block_after (r : Recorded) (inputs : List (Input Unit)) :
    (after r inputs).block = after r.block inputs := by
  refine Input.map_after (fun now i => ?_) r inputs
  cases i <;> rfl

theorem after_concat_tick (r : Recorded) (inputs : List (Input Unit)) :
    after r (inputs ++ [.tick]) = (after r inputs).tick :=
  Input.after_concat ..

theorem Follows.after_release (follows : Follows s done values r) :
    Ready s done values [] (after r Input.release) :=
  follows.release.tick

theorem Ready.after_ask (ready : Ready s done values [] r) (o : Order) :
    (after r (Input.ask o)).block.due = some o ∧ Asked s done values o (after r (Input.ask o)) := by
  have high := ready.put (i := Engine.inHigh) (f := ⟨"word_in_hi", 32, .readWrite⟩) (by decide) rfl rfl
    (fun _ none => nomatch none) o.operand.high
  rw [and_widthMask_word] at high
  have low := high.put (i := Engine.inLow) (f := ⟨"word_in_lo", 32, .readWrite⟩) (by decide) rfl rfl
    (List.forall_mem_singleton.2 (by show 1 ≠ 2; decide)) o.operand.low
  rw [and_widthMask_word] at low
  have placed := low.put (i := Engine.opcode) (f := ⟨"cmd", 8, .readWrite⟩) (by decide) rfl rfl
    (List.forall_mem_cons.2 ⟨by show 2 ≠ 0; decide, List.forall_mem_singleton.2 (by show 1 ≠ 0; decide)⟩)
    o.opcode
  rw [o.opcode_and_widthMask] at placed
  exact ⟨placed.due_put_start, placed.ask⟩

/-- The loop runs after it was started, and the block is ready for another order. -/
theorem Follows.launch (follows : Follows s done values r) :
    ∃ later, Ready s (done ++ [.write .status 1]) later [] (after r Input.launch) := by
  have ready := follows.after_release
  obtain ⟨-, asked⟩ := ready.after_ask (.write .status 1)
  rw [Input.launch, Input.after_append, after_concat_tick, Input.after_append]
  exact ⟨_, asked.tick.toFollows.after_release⟩

/-- A write of the count is tallied from the step in which it falls due. -/
theorem Asked.counts_after_ticks {v : Value} (asked : Asked s done values (.write .cycles v) r)
    (due : r.block.due = some (.write .cycles v)) (k : Nat) :
    Answered s (done ++ [.write .cycles v]) values (after r (List.replicate (k + 1) .tick)) ∧
      Tally.Counts ⟨v, k + 1⟩ (after r (List.replicate (k + 1) .tick)).block.parameter := by
  induction k with
  | zero =>
    refine ⟨asked.tick, ?_⟩
    show Tally.Counts ⟨v, 0 + 1⟩ r.tick.block.parameter
    rw [block_tick, Engine.parameter_tick, due]
    exact Tally.Counts.of_set (Store.carryOut_of_countSet? rfl)
  | succ k ih =>
    obtain ⟨answered, counts⟩ := ih
    rw [List.replicate_succ', after_concat_tick]
    refine ⟨answered.tick, ?_⟩
    rw [block_tick, Engine.parameter_tick, Engine.due_of_answered answered.finished]
    exact counts.of_kept

end Recorded

namespace Engine

variable {e : Engine}

/-- A master that starts the loop and writes the count chooses the steps that overflow. -/
theorem overflows_after_write (fits : e.registers.Fits) (v : Value) (k : Nat) :
    (after e (Input.launch ++ Input.ask (.write .cycles v) ++ List.replicate k .tick)).Overflows ↔
      (v.toInt + k + 1) % 2 ^ 64 = 2 ^ 63 := by
  have follows : Recorded.Follows e.parameter [] [] ⟨e, []⟩ := ⟨fits, rfl, rfl, rfl⟩
  obtain ⟨later, ready⟩ := follows.launch
  obtain ⟨due, asked⟩ := ready.after_ask (.write .cycles v)
  obtain ⟨answered, counts⟩ := asked.counts_after_ticks due k
  have left := answered.toFollows.alike
  rw [List.replicate_succ', Recorded.after_concat_tick, Recorded.block_tick, Recorded.block_after,
    Recorded.block_after, Recorded.block_after] at counts left
  have status := left .status (by decide)
  have runs : ((after (after (after e Input.launch) (Input.ask (.write .cycles v)))
      (List.replicate k .tick)).tick).running = true := by
    rw [running, status]
    rfl
  have total : Tally.total ⟨v, k + 1⟩ = v.toInt + k + 1 := by
    dsimp only [Tally.total]
    omega
  rw [Input.after_append, Input.after_append, overflows_iff_of_counts counts, total]
  exact and_iff_right runs

/-- The count overflows in a step exactly if the loop runs and the number that was put in last and the steps
since add up to the number after the largest one. Without a write of the count that takes `2 ^ 63` steps,
but whatever happened before, a write can choose the step. -/
theorem increment_overflows_iff (past : List (Input Unit)) :
    ((after reset past).Overflows ↔
      (after reset (past ++ [.tick])).running = true ∧
        (tally (past ++ [.tick])).total % 2 ^ 64 = 2 ^ 63) ∧
    ((after reset past).Overflows →
      2 ^ 63 ≤ past.count .tick + 1 ∨
        ∃ v : Value, some (.write .cycles v) ∈ reset.ordersDue (past ++ [.tick]) ∧
          2 ^ 63 ≤ v.toInt + past.count .tick + 1) ∧
    ∀ (v : Value) (k : Nat),
      (after reset (past ++ (Input.launch ++ Input.ask (.write .cycles v) ++
          List.replicate k .tick))).Overflows ↔
        (v.toInt + k + 1) % 2 ^ 64 = 2 ^ 63 := by
  have fits : (after reset past).registers.Fits := fits_after (RegisterFile.fits_zero _) past
  refine ⟨?_, exists_write_of_overflows, fun v k => ?_⟩
  · rw [overflows_iff_of_counts (counts_tally_concat_tick past), Input.after_append]
    rfl
  · rw [Input.after_append]
    exact overflows_after_write fits v k

theorem largest_count_is_written :
    (after reset Input.launchAtMost).Overflows ∧
      (2 ^ 63 ≤ Input.launchAtMost.count .tick + 1 ∨
        ∃ v : Value, some (.write .cycles v) ∈ reset.ordersDue (Input.launchAtMost ++ [.tick]) ∧
          2 ^ 63 ≤ v.toInt + Input.launchAtMost.count .tick + 1) :=
  ⟨by decide +kernel, (increment_overflows_iff Input.launchAtMost).2.1 (by decide +kernel)⟩

/-- The step that carries out such a write overflows, and the count is the least number after it. -/
theorem written_count_overflows :
    ¬(∀ past : List (Input Unit), ¬(after reset past).Overflows) ∧
      ((after reset (Input.launchAtMost ++ [.tick])).parameter .cycles).toInt = -2 ^ 63 :=
  ⟨fun never => never Input.launchAtMost (by decide +kernel), by decide +kernel⟩

end Engine

end InstrumentBus.ControlLoop
