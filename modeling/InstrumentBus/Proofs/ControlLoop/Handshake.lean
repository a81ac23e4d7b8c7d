import InstrumentBus.Proofs.ControlLoop.Store

/-!
# The handshake of a call

A call of the command block passes through the same points whatever else happens in between: the block
rests, it is ready and takes its inputs, it is asked, it shows its answer, and it rests again. `Follows`
goes along: a store that takes the recorded steps has the values of the block. At each point a step of the
block leads to the next point or stays, so that it does not matter how many steps others make the block
take.
-/

namespace InstrumentBus.ControlLoop

open Engine (start finish opcode inHigh inLow outHigh outLow)

/-- The block with a record of the order that fell due in each of its steps, if any. -/
structure Recorded where
  block : Engine
  orders : List (Option Order)

namespace Recorded

variable {s : Store} {done : List Order} {values : List Value} {inputs : List (Nat × Word)} {o : Order}
  {r : Recorded} {i : Nat} {w : Word}

/-- The block one step later. -/
def tick (r : Recorded) : Recorded :=
  { block := r.block.tick, orders := r.orders ++ [r.block.due] }

/-- The block after a word was written to the register in place `i` over the bus. -/
def put (r : Recorded) (i : Nat) (w : Word) : Recorded :=
  { r with block := r.block.put i w }

/-- The value of the register in place `i`. -/
def value (r : Recorded) (i : Nat) : Word :=
  r.block.registers.value i

/-! ## The store behind the block -/

/-- The block holds what the recorded steps make of the store `s`. They carried out the orders `done`,
which were answered with `values`. -/
structure Follows (s : Store) (done : List Order) (values : List Value) (r : Recorded) : Prop where
  fits : r.block.registers.Fits
  held : r.block.parameter = s.run r.orders
  carriedOut : r.orders.filterMap id = done
  answered : s.answers r.orders = values

theorem Follows.tick_of_none (follows : Follows s done values r) (none : r.block.due = none) :
    Follows s done values r.tick := by
  obtain ⟨fits, held, carriedOut, answered⟩ := follows
  refine ⟨Engine.fits_tick fits, ?_, ?_, ?_⟩
  · show r.block.tick.parameter = s.run (r.orders ++ [r.block.due])
    rw [Store.run_concat, Engine.parameter_tick, held]
  · show (r.orders ++ [r.block.due]).filterMap id = done
    rw [List.filterMap_append, none, carriedOut]
    exact List.append_nil done
  · show s.answers (r.orders ++ [r.block.due]) = values
    rw [Store.answers_concat, none, answered]
    exact List.append_nil values

/-- An order that falls due is carried out once, and the outputs show its answer. -/
theorem Follows.tick_of_some (follows : Follows s done values r) (due : r.block.due = some o) :
    Follows s (done ++ [o])
      (values ++ [Value.ofHalves (r.tick.value outHigh) (r.tick.value outLow)]) r.tick := by
  obtain ⟨fits, held, carriedOut, answered⟩ := follows
  obtain ⟨-, high, low⟩ := Engine.value_tick_of_due due
  have shown : Value.ofHalves (r.tick.value outHigh) (r.tick.value outLow) = (s.run r.orders).answer o := by
    rw [← held, ← Value.ofHalves_high_low (Store.answer r.block.parameter o), ← high, ← low]
    rfl
  refine ⟨Engine.fits_tick fits, ?_, ?_, ?_⟩
  · show r.block.tick.parameter = s.run (r.orders ++ [r.block.due])
    rw [Store.run_concat, Engine.parameter_tick, held]
  · show (r.orders ++ [r.block.due]).filterMap id = done ++ [o]
    rw [List.filterMap_append, due, carriedOut]
    rfl
  · show s.answers (r.orders ++ [r.block.due]) = _
    rw [Store.answers_concat, due, answered, shown]
    rfl

/-! ## Writes of the bus -/

/-- A write reaches the one register and keeps to its width. -/
theorem value_put (fits : r.block.registers.Fits) {f : Field} (found : Engine.layout.fields[i]? = some f)
    (granted : f.access.writableBy .supervisor = true) (w : Word) (j : Nat) :
    (r.put i w).value j = if j = i then w &&& widthMask f.width else r.value j := by
  rw [value, put, Engine.put, Engine.registers_transact]
  exact fits.value_transactFrom_writeWord (by decide) found granted w j

theorem Follows.put (follows : Follows s done values r) (i : Nat) (w : Word) :
    Follows s done values (r.put i w) := by
  obtain ⟨fits, held, carriedOut, answered⟩ := follows
  refine ⟨?_, ?_, carriedOut, answered⟩
  · exact Engine.fits_transact fits (.writeWord (Layout.offset i) w)
  · exact (Engine.parameter_transact r.block (.writeWord (Layout.offset i) w)).trans held

/-! ## The points of a call -/

/-- The handshake is released. -/
structure Rests (s : Store) (done : List Order) (values : List Value) (r : Recorded) : Prop extends
    Follows s done values r where
  released : r.value start = 0

/-- The handshake is released at both ends, and these inputs are in place. -/
structure Ready (s : Store) (done : List Order) (values : List Value) (inputs : List (Nat × Word))
    (r : Recorded) : Prop extends Rests s done values r where
  ready : r.value finish = 0
  placed : ∀ input ∈ inputs, input.1 < 3 ∧ r.value input.1 = input.2

/-- The block was started, and shows the answer to its last order. -/
structure Answered (s : Store) (done : List Order) (values : List Value) (r : Recorded) : Prop extends
    Follows s done (values ++ [Value.ofHalves (r.value outHigh) (r.value outLow)]) r where
  started : r.value start = 1
  finished : r.value finish = 1

/-- The order falls due in the next step, or is answered already. -/
def Asked (s : Store) (done : List Order) (values : List Value) (o : Order) (r : Recorded) : Prop :=
  (Follows s done values r ∧ r.block.due = some o) ∨ Answered s (done ++ [o]) values r

/-- A block that rests is ready after one step. -/
theorem Rests.tick (rests : Rests s done values r) : Ready s done values [] r.tick := by
  have released : r.value start ≠ 1 := by
    rw [rests.released]
    decide
  have still : r.tick.value start = 0 := (r.block.value_tick_of_lt (by decide)).trans rests.released
  exact ⟨⟨rests.tick_of_none (Engine.due_of_not_starts released), still⟩,
    Engine.value_finish_tick_of_released released rests.fits, fun _ present => nomatch present⟩

/-- Inputs stay in place. -/
theorem Ready.tick (ready : Ready s done values inputs r) : Ready s done values inputs r.tick := by
  obtain ⟨rests, free, -⟩ := ready.toRests.tick
  refine ⟨rests, free, fun input present => ?_⟩
  obtain ⟨inside, placed⟩ := ready.placed input present
  exact ⟨inside, (r.block.value_tick_of_lt (Nat.lt_succ_of_lt inside)).trans placed⟩

/-- One more input is put in place. -/
theorem Ready.put (ready : Ready s done values inputs r) (inside : i < 3) {f : Field}
    (found : Engine.layout.fields[i]? = some f) (granted : f.access.writableBy .supervisor = true)
    (fresh : ∀ input ∈ inputs, input.1 ≠ i) (w : Word) :
    Ready s done values ((i, w &&& widthMask f.width) :: inputs) (r.put i w) := by
  have elsewhere {j : Nat} (other : j ≠ i) : (r.put i w).value j = r.value j := by
    rw [value_put ready.fits found granted, if_neg other]
  have beyond {j : Nat} (output : 3 ≤ j) : (r.put i w).value j = r.value j := elsewhere (by omega)
  refine ⟨⟨ready.toFollows.put i w, ?_⟩, ?_, fun input present => ?_⟩
  · exact (beyond (by decide)).trans ready.released
  · exact (beyond (by decide)).trans ready.ready
  · rcases List.mem_cons.1 present with rfl | earlier
    · exact ⟨inside, by rw [value_put ready.fits found granted, if_pos rfl]⟩
    · obtain ⟨below, placed⟩ := ready.placed input earlier
      exact ⟨below, (elsewhere (fresh input earlier)).trans placed⟩

/-- The order that is in place falls due once the block is started. -/
theorem Ready.due_put_start
    (ready : Ready s done values [(opcode, o.opcode), (inLow, o.operand.low), (inHigh, o.operand.high)] r) :
    (r.put start 1).block.due = some o := by
  have after (j : Nat) : (r.put start 1).value j = if j = start then 1 else r.value j :=
    value_put (f := ⟨"start_cmd", 1, .readWrite⟩) ready.fits rfl rfl 1 j
  have input {j : Nat} {w : Word}
      (present : (j, w) ∈ [(opcode, o.opcode), (inLow, o.operand.low), (inHigh, o.operand.high)]) :
      (r.put start 1).value j = w := by
    obtain ⟨inside, placed⟩ := ready.placed _ present
    rw [after, if_neg (Nat.ne_of_lt inside)]
    exact placed
  have started : (r.put start 1).value start = 1 := after start
  have free : (r.put start 1).value finish ≠ 1 := by
    rw [after, if_neg (by decide), ready.ready]
    decide
  refine (if_pos ⟨started, free⟩).trans ?_
  show Order.ofOpcode? ((r.put start 1).value opcode)
    (Value.ofHalves ((r.put start 1).value inHigh) ((r.put start 1).value inLow)) = some o
  rw [input (.head _), input (.tail _ (.head _)), input (.tail _ (.tail _ (.head _))),
    Value.ofHalves_high_low, Order.ofOpcode?_opcode]

/-- A block that is started with an order in place is asked for it. -/
theorem Ready.ask
    (ready : Ready s done values [(opcode, o.opcode), (inLow, o.operand.low), (inHigh, o.operand.high)] r) :
    Asked s done values o (r.put start 1) :=
  .inl ⟨ready.toFollows.put start 1, ready.due_put_start⟩

/-- The answer stands until the handshake is released. -/
theorem Answered.value_tick (answered : Answered s done values r) (other : i ≠ Engine.inLoop) :
    r.tick.value i = r.value i :=
  Engine.value_tick_of_held answered.started answered.finished other

theorem Answered.tick (answered : Answered s done values r) : Answered s done values r.tick := by
  have follows := answered.tick_of_none (Engine.due_of_answered answered.finished)
  refine ⟨?_, (answered.value_tick (by decide)).trans answered.started,
    (answered.value_tick (by decide)).trans answered.finished⟩
  rwa [answered.value_tick (i := outHigh) (by decide), answered.value_tick (i := outLow) (by decide)]

/-- A block that is asked shows the answer after one step. -/
theorem Asked.tick (asked : Asked s done values o r) : Answered s (done ++ [o]) values r.tick := by
  rcases asked with ⟨follows, due⟩ | answered
  · obtain ⟨finished, -⟩ := Engine.value_tick_of_due due
    have started : r.value start = 1 := by
      unfold Engine.due at due
      split at due
      · next fresh => exact fresh.1
      · cases due
    exact ⟨follows.tick_of_some due, (r.block.value_tick_of_lt (by decide)).trans started, finished⟩
  · exact answered.tick

/-- A block whose handshake is released rests. -/
theorem Follows.release (follows : Follows s done values r) : Rests s done values (r.put start 0) :=
  ⟨follows.put start 0, value_put (f := ⟨"start_cmd", 1, .readWrite⟩) follows.fits rfl rfl 0 start⟩

theorem Answered.release (answered : Answered s done values r) :
    Rests s done (values ++ [Value.ofHalves (r.value outHigh) (r.value outLow)]) (r.put start 0) :=
  answered.toFollows.release

end Recorded

end InstrumentBus.ControlLoop
