import InstrumentBus.Proofs.Word.Window
import InstrumentBus.Proofs.Board.Attended
import InstrumentBus.Proofs.Board.Player
import InstrumentBus.Proofs.ControlLoop.Handshake
import InstrumentBus.Driver.ControlLoop

/-!
# Calls of the command block

The supervisor calls the command block of the control loop, and a call is nine accesses. Others use the
board as well, between the calls and between the accesses of a call (`Overseen`), but not the command block.
Each of these accesses is at most one step of the block, and the points of a call outlast such steps
(`Stands`), so that every call is carried out once and answered by the store behind the block
(`calls_are_served_by_store`).
-/

namespace InstrumentBus

open ControlLoop (Command Engine Order Recorded Store Value)

/-! ## Calls one after the other -/

namespace LoopDriver

variable {τ : Type} [Transport τ]

/-- Have an order carried out. -/
def carryOut (d : LoopDriver) : Order → Action (Link τ) Value
  | .read c => d.read c
  | .write c v => d.write c v

/-- The first part of a call: the inputs are put in place and the block is started. -/
def place (d : LoopDriver) (o : Order) : Action τ Unit := do
  d.inHigh.set o.operand.high
  d.inLow.set o.operand.low
  d.opcode.set o.opcode
  d.startBit.set 1

/-- The second part of a call: the answer is taken and the handshake released. -/
def collect (d : LoopDriver) : Action τ Value := do
  waitFor "finish_cmd" d.pollLimit (d.finishBit.reads 1)
  let high ← d.outHigh.get
  let low ← d.outLow.get
  d.startBit.set 0
  waitFor "finish_cmd release" d.pollLimit (d.finishBit.reads 0)
  return .ofHalves high low

theorem carryOut_eq (d : LoopDriver) (o : Order) :
    d.carryOut o = (Link.locked (d.place o >>= fun _ => d.collect) : Action (Link τ) Value) := by
  have called : d.carryOut o = (d.call o.opcode o.operand : Action (Link τ) Value) := by cases o <;> rfl
  rw [called]
  simp only [call, place, collect, bind_assoc]

/-- The outcomes of several calls, one after the other, each with the link that it leaves. -/
def outcomes (d : LoopDriver) (l : Link τ) : List Order → List (Except DriverError Value × Link τ)
  | [] => []
  | o :: orders =>
    (d.carryOut o).perform l :: d.outcomes ((d.carryOut o).perform l).2 orders

end LoopDriver

namespace Board

open InstrumentBus.Action (Meets)
open ControlLoop.Recorded (Follows Rests Ready Answered Asked)

variable {c : Config} {b : Board} {i : Nat} {f : Field}

/-! ## The block on its board -/

/-- An event in which no processor reaches the region of a block. -/
def Event.Spares (c : Config) (block : Block) : Event → Prop
  | .access side op => ∀ region ∈ regionsOf c side, op.addr.wordBase ∈ region → region.owner ≠ block
  | _ => True

theorem transact?_cl_of_ne {side : Side} {block : Block} {req : Request} {answered : Response × Board}
    (result : b.transact? side block req = some answered) (other : block ≠ .cl) :
    answered.2.cl = b.cl := by
  cases side with
  | supervisor => cases block <;> first | exact absurd rfl other | (cases result; rfl)
  | coprocessor => cases block <;> cases result <;> rfl

/-- An event that spares the command block is a step of it or leaves it as it is. -/
theorem Reachable.step_cl (reach : Reachable c b) {e : Event} (spares : e.Spares c .cl) :
    (b.step e).cl = if b.moves e then b.cl.tick else b.cl := by
  cases e with
  | tick => rfl
  | access side op =>
    show (b.perform side op).2.cl = _
    rcases reach.perform_cases side op with
      ⟨skewed, outcome⟩ | ⟨aligned, outside, outcome⟩ |
      ⟨aligned, region, present, inside, answered, result, outcome⟩
    · rw [outcome, moves_of_not_aligned side skewed, if_neg Bool.false_ne_true]
    · rw [outcome, reach.moves_of_outside outside, if_neg Bool.false_ne_true]
    · rw [outcome, reach.moves_of_mem aligned present inside, if_pos rfl]
      exact transact?_cl_of_ne result (spares region (reach.mem_map.1 present) inside)
  | sample raw => rfl
  | core activity => rfl

/-- The registers of the command block keep to their widths. -/
theorem Reachable.fits_cl (reach : Reachable c b) : b.cl.registers.Fits := by
  refine reach.invariant ?assembled Engine.fits_tick ?transact (fun _ fits => fits) fun _ fits => fits
  case assembled =>
    intro b assembled
    obtain ⟨_, _, -, -, -, rfl⟩ := assemble_eq_ok_iff.1 assembled
    exact RegisterFile.fits_zero _
  case transact =>
    intro b fits side block req answered result
    by_cases loop : block = .cl
    · rw [loop] at result
      cases side with
      | supervisor =>
        cases result
        exact Engine.fits_transact fits _
      | coprocessor => cases result
    · rwa [transact?_cl_of_ne result loop]

/-! ## The driver -/

/-- The region of the command block. -/
def loopRegion : AddressMap.Region Block :=
  .ofLayout "cl" 0x7100 Engine.layout .cl

theorem Reachable.holds_loop (reach : Reachable c b) (found : Engine.layout.fields[i]? = some f) :
    AddressMap.HoldsRegister (b.map .supervisor) loopRegion Engine.layout i f := by
  refine ⟨?_, rfl, found⟩
  rw [reach.mem_map]
  simp [loopRegion, regionsOf, supervisorRegions]

/-- The driver of the command block. -/
def loopDriver : LoopDriver :=
  { opcode := refOf loopRegion Engine.opcode ⟨"cmd", 8, .readWrite⟩
    inHigh := refOf loopRegion Engine.inHigh ⟨"word_in_hi", 32, .readWrite⟩
    inLow := refOf loopRegion Engine.inLow ⟨"word_in_lo", 32, .readWrite⟩
    startBit := refOf loopRegion Engine.start ⟨"start_cmd", 1, .readWrite⟩
    outHigh := refOf loopRegion Engine.outHigh ⟨"word_out_hi", 32, .readOnly⟩
    outLow := refOf loopRegion Engine.outLow ⟨"word_out_lo", 32, .readOnly⟩
    finishBit := refOf loopRegion Engine.finish ⟨"finish_cmd", 1, .readOnly⟩
    inLoop := refOf loopRegion Engine.inLoop ⟨"in_loop", 1, .readOnly⟩
    pollLimit := standardPollLimit }

/-- The supervisor's manifest leads to the driver of the command block. -/
theorem Reachable.ofManifest_loop (reach : Reachable c b) :
    LoopDriver.ofManifest (b.manifest .supervisor) "cl" = .ok loopDriver := by
  have register {i : Nat} {name : String} {width : Nat} {access : Access}
      (found : Engine.layout.fields[i]? = some ⟨name, width, access⟩) :
      RegisterRef.resolve (b.manifest .supervisor) "cl" name =
        .ok (refOf loopRegion i ⟨name, width, access⟩) :=
    reach.resolve_register (reach.holds_loop found)
  simp only [LoopDriver.ofManifest, register (i := Engine.opcode) rfl, register (i := Engine.inHigh) rfl,
    register (i := Engine.inLow) rfl, register (i := Engine.start) rfl,
    register (i := Engine.outHigh) rfl, register (i := Engine.outLow) rfl,
    register (i := Engine.finish) rfl, register (i := Engine.inLoop) rfl]
  rfl

/-! ## A board that others use too -/

/-- The order that falls due in a step of the board, if any, is entered last. -/
def noteOrder (b : Board) (_ : Turn) (e : Event) (orders : List (Option Order)) : List (Option Order) :=
  if b.moves e then orders ++ [b.cl.due] else orders

/-- The board as the supervisor's driver of the command block reaches it, with the order that fell due in
each step of the board so far, if any. -/
abbrev Overseen := Attended noteOrder

/-- The command block with the orders so far. -/
def Attended.recorded (t : Overseen) : Recorded :=
  { block := t.board.cl, orders := t.record }

/-- Others spare the command block, of which `K` holds with its orders so far. -/
structure Stands (c : Config) (K : Recorded → Prop) (t : Overseen) : Prop where
  reach : Reachable c t.board
  spared : ∀ events ∈ t.ahead, ∀ e ∈ events, e.Spares c .cl
  holds : K t.recorded

variable {K L : Recorded → Prop} {t : Overseen}

/-- An event that spares the block is a step of the block and its record, or leaves both as they are. -/
theorem Stands.observe (stands : Stands c K t) (steady : ∀ r, K r → K r.tick) {e : Event}
    (spares : e.Spares c .cl) (turn : Turn) : Stands c K (t.observe turn e) := by
  refine ⟨.step e stands.reach, stands.spared, ?_⟩
  have moved := stands.reach.step_cl spares
  cases moves : t.board.moves e with
  | true =>
    rw [moves, if_pos rfl] at moved
    have ticked : (t.observe turn e).recorded = t.recorded.tick := by
      simp only [Attended.recorded, Attended.observe, noteOrder, moves, moved, if_true]
      rfl
    rw [ticked]
    exact steady _ stands.holds
  | false =>
    rw [moves, if_neg Bool.false_ne_true] at moved
    have same : (t.observe turn e).recorded = t.recorded := by
      simp only [Attended.recorded, Attended.observe, noteOrder, moves, moved]
      rfl
    rw [same]
    exact stands.holds

/-- What outlasts the steps of the block outlasts what others do. -/
theorem Stands.interlude (stands : Stands c K t) (steady : ∀ r, K r → K r.tick) :
    Stands c K t.interlude := by
  have kept : Reachable c t.interlude.board ∧ K t.interlude.recorded := by
    refine Attended.interlude_keeps (P := fun b orders => Reachable c b ∧ K ⟨b.cl, orders⟩)
      (fun events listed e happens b orders before => ?_) ⟨stands.reach, stands.holds⟩
    have alone : Stands c K (⟨b, [], orders⟩ : Overseen) :=
      ⟨before.1, (fun _ none => nomatch none), before.2⟩
    have next := alone.observe steady (stands.spared events listed e happens) .others
    exact ⟨next.reach, next.holds⟩
  exact ⟨kept.1, fun events later => stands.spared events (List.mem_of_mem_tail later), kept.2⟩

/-! ### Accesses to the block -/

/-- An access to a register of the block is a step of the block and a transaction of it. -/
theorem Stands.register (stands : Stands c K t) (found : Engine.layout.fields[i]? = some f) (op : Op)
    (atRegister : op.addr = loopRegion.origin + Layout.offset i) {answer : Response} {after : Engine}
    (transacted : t.recorded.tick.block.transact (op.request.relocate (Layout.offset i)) = (answer, after)) :
    (∃ left, t.board.perform .supervisor op = (.ok (op.result answer.data), left)) ∧
      (t.observe .driver (.access .supervisor op)).recorded = { t.recorded.tick with block := after } := by
  have here : Reachable c t.board := stands.reach
  have holds := here.holds_loop found
  obtain ⟨answered, result, outcome⟩ := here.perform_register holds op atRegister
  have reached : answered = (answer, { t.board.tick with cl := after }) := by
    refine (Option.some.inj result).symm.trans ?_
    exact congrArg (Prod.map id fun e => { t.board.tick with cl := e }) transacted
  subst reached
  have even : op.addr.Aligned := atRegister ▸ holds.aligned (here.arranged _) (here.banked _)
  have inside : op.addr.wordBase ∈ loopRegion := by
    rw [Addr.wordBase_of_aligned even, atRegister]
    exact holds.mem_span (here.arranged _) (here.banked _) (show 0 < 4 by decide)
  have moved : t.board.moves (.access .supervisor op) = true :=
    here.moves_of_mem (fun _ => even) holds.present inside
  refine ⟨⟨_, outcome⟩, ?_⟩
  simp only [Attended.recorded, Attended.observe, noteOrder, moved, if_true, step, outcome]
  rfl

/-- A register of the block is read after one more step of the block. -/
theorem meets_loopGet (found : Engine.layout.fields[i]? = some f) {Q : Word → Recorded → Prop}
    (steady : ∀ r, K r → K r.tick)
    (next : ∀ r, K r → Q (r.tick.value i &&& widthMask f.width) r.tick) :
    Meets (Stands c K) (refOf loopRegion i f).get (fun w => Stands c (Q w)) fun _ _ => False := by
  apply Meets.of_perform
  intro t before
  have stands := before.interlude steady
  have inside : i < Engine.layout.count := (Array.getElem?_eq_some_iff.1 found).1
  let op : Op := .readWord (loopRegion.origin + Layout.offset i)
  obtain ⟨⟨left, performed⟩, after⟩ := stands.register found op rfl (Engine.transact_read inside _)
  have read : Transport.readWord t (loopRegion.origin + Layout.offset i) =
      (.ok (t.interlude.recorded.tick.value i), t.interlude.observe .driver (.access .supervisor op)) := by
    refine Prod.ext ?_ rfl
    show (t.interlude.board.perform .supervisor op).1 = _
    rw [performed]
    rfl
  refine .inl ⟨_, _, Action.perform_bind_of_ok (Action.perform_ofAccess_of_ok read) _, ?_⟩
  refine ⟨stands.reach.step (.access .supervisor op), stands.spared, ?_⟩
  rw [after]
  exact next _ stands.holds

/-- A wait for a register that reads as it is to after one more step ends with the first poll. -/
theorem meets_loopWait (found : Engine.layout.fields[i]? = some f) {w : Word}
    (steady : ∀ r, K r → K r.tick)
    (next : ∀ r, K r → r.tick.value i &&& widthMask f.width = w ∧ L r.tick) (name : String)
    {limit : Nat} (polls : 0 < limit) :
    Meets (Stands c K) (waitFor name limit ((refOf loopRegion i f).reads w)) (fun _ => Stands c L)
      fun _ _ => False := by
  refine Meets.waitFor ?_ name polls
  refine (meets_loopGet (Q := fun v r => v = w ∧ L r) found steady next).bind fun v => ?_
  exact Action.meets_pure fun s met =>
    ⟨beq_iff_eq.2 met.holds.1, met.reach, met.spared, met.holds.2⟩

/-- A register of the block is written after one more step of the block. -/
theorem meets_loopSet (found : Engine.layout.fields[i]? = some f) (writable : f.access = .readWrite)
    (w : Word) (steady : ∀ r, K r → K r.tick)
    (next : ∀ r, K r → L (r.tick.put i (w &&& widthMask f.width))) :
    Meets (Stands c K) ((refOf loopRegion i f).set w) (fun _ => Stands c L) fun _ _ => False := by
  apply Meets.of_perform
  intro t before
  have stands := before.interlude steady
  let op : Op := .writeWord (loopRegion.origin + Layout.offset i) (w &&& widthMask f.width)
  obtain ⟨⟨left, performed⟩, after⟩ := stands.register found op rfl rfl
  have written : Transport.writeWord t (loopRegion.origin + Layout.offset i) (w &&& widthMask f.width) =
      (.ok (), t.interlude.observe .driver (.access .supervisor op)) := by
    refine Prod.ext ?_ rfl
    show (t.interlude.board.writeWord .supervisor _ _).1 = .ok ()
    exact congrArg Prod.fst (View.writeWord_of_perform performed)
  refine .inl ⟨(), t.interlude.observe .driver (.access .supervisor op), ?_, ?_⟩
  · exact RegisterRef.perform_set_of_granted (checkWritable_refOf writable) written
  · refine ⟨stands.reach.step (.access .supervisor op), stands.spared, ?_⟩
    rw [after]
    exact next _ stands.holds

/-! ## A call -/

section Calls

variable {s : Store} {done : List Order} {values : List Value}

/-- One more input is put in place. -/
theorem meets_input (inputs : List (Nat × Word)) (found : Engine.layout.fields[i]? = some f)
    (writable : f.access = .readWrite) (inside : i < 3) (fresh : ∀ input ∈ inputs, input.1 ≠ i) {w : Word}
    (whole : w &&& widthMask f.width = w) (steady : ∀ r, K r → K r.tick)
    (enters : ∀ r, K r → Ready s done values inputs r.tick) :
    Meets (Stands c K) ((refOf loopRegion i f).set w)
      (fun _ => Stands c (Ready s done values ((i, w) :: inputs))) fun _ _ => False := by
  refine meets_loopSet found writable w steady fun r before => ?_
  have granted : f.access.writableBy .supervisor = true := by
    rw [writable]
    rfl
  have placed := (enters r before).put inside found granted fresh w
  rw [whole] at placed ⊢
  exact placed

theorem start_field : Engine.layout.fields[Engine.start]? = some ⟨"start_cmd", 1, .readWrite⟩ := rfl

theorem finish_field : Engine.layout.fields[Engine.finish]? = some ⟨"finish_cmd", 1, .readOnly⟩ := rfl

/-- The block is started with an order in place. -/
theorem meets_ask (o : Order) :
    Meets (Stands c (Ready s done values
        [(Engine.opcode, o.opcode), (Engine.inLow, o.operand.low), (Engine.inHigh, o.operand.high)]))
      (loopDriver.startBit.set 1) (fun _ => Stands c (Asked s done values o)) fun _ _ => False :=
  meets_loopSet start_field rfl 1 (fun _ ready => ready.tick) fun _ ready => ready.tick.ask

/-- The first poll finds the block with its answer. -/
theorem meets_answer (o : Order) (name : String) {limit : Nat} (polls : 0 < limit) :
    Meets (Stands c (Asked s done values o)) (waitFor name limit (loopDriver.finishBit.reads 1))
      (fun _ => Stands c (Answered s (done ++ [o]) values)) fun _ _ => False := by
  refine meets_loopWait finish_field (fun _ asked => .inr asked.tick) (fun _ asked => ⟨?_, asked.tick⟩)
    name polls
  rw [asked.tick.finished]
  decide

/-- The block shows an answer with these halves. -/
def Halves (s : Store) (done : List Order) (values : List Value) (high low : Word) (r : Recorded) : Prop :=
  Answered s done values r ∧ r.value Engine.outHigh = high ∧ r.value Engine.outLow = low

/-- The answer stands while it is read. -/
theorem meets_high : Meets (Stands c (Answered s done values)) loopDriver.outHigh.get
    (fun high => Stands c fun r => ∃ low, Halves s done values high low r) fun _ _ => False :=
  meets_loopGet (f := ⟨"word_out_hi", 32, .readOnly⟩) rfl (fun _ answered => answered.tick)
    fun _ answered => ⟨_, answered.tick, (and_widthMask_word _).symm, rfl⟩

theorem Halves.tick {high low : Word} {r : Recorded} (shown : Halves s done values high low r) :
    Halves s done values high low r.tick :=
  ⟨shown.1.tick, (shown.1.value_tick (by decide)).trans shown.2.1,
    (shown.1.value_tick (by decide)).trans shown.2.2⟩

theorem meets_low (high : Word) :
    Meets (Stands c fun r => ∃ low, Halves s done values high low r) loopDriver.outLow.get
      (fun low => Stands c (Halves s done values high low)) fun _ _ => False :=
  meets_loopGet (f := ⟨"word_out_lo", 32, .readOnly⟩) rfl (fun _ ⟨low, shown⟩ => ⟨low, shown.tick⟩)
    fun _ ⟨_, shown⟩ => ⟨shown.tick.1, shown.tick.2.1, (and_widthMask_word _).symm⟩

/-- The handshake is released. -/
theorem meets_release (high low : Word) :
    Meets (Stands c (Halves s done values high low)) (loopDriver.startBit.set 0)
      (fun _ => Stands c (Rests s done (values ++ [.ofHalves high low]))) fun _ _ => False := by
  refine meets_loopSet start_field rfl 0 (fun _ shown => shown.tick) fun r shown => ?_
  obtain ⟨answered, first, second⟩ := shown.tick
  have released := answered.release
  rwa [first, second] at released

/-- The first poll finds the handshake released at the other end too. -/
theorem meets_rest (name : String) {limit : Nat} (polls : 0 < limit) :
    Meets (Stands c (Rests s done values)) (waitFor name limit (loopDriver.finishBit.reads 0))
      (fun _ => Stands c (Ready s done values [])) fun _ _ => False := by
  refine meets_loopWait finish_field (fun _ rests => rests.tick.toRests) (fun _ rests => ⟨?_, rests.tick⟩)
    name polls
  rw [rests.tick.ready]
  decide

/-- A block that rests takes the inputs of a call and is asked. -/
theorem meets_place (o : Order) :
    Meets (Stands c (Rests s done values)) (loopDriver.place o) (fun _ => Stands c (Asked s done values o))
      fun _ _ => False := by
  have waits {inputs : List (Nat × Word)} (r : Recorded) (ready : Ready s done values inputs r) :
      Ready s done values inputs r.tick := ready.tick
  have inHigh : Engine.layout.fields[Engine.inHigh]? = some ⟨"word_in_hi", 32, .readWrite⟩ := rfl
  have inLow : Engine.layout.fields[Engine.inLow]? = some ⟨"word_in_lo", 32, .readWrite⟩ := rfl
  have opcode : Engine.layout.fields[Engine.opcode]? = some ⟨"cmd", 8, .readWrite⟩ := rfl
  -- The block rests until the first step, and takes its inputs from then on.
  refine (meets_input [] inHigh rfl (by decide) (fun _ none => nomatch none) (and_widthMask_word _)
    (fun _ rests => rests.tick.toRests) fun _ rests => rests.tick).bind fun _ => ?_
  refine (meets_input _ inLow rfl (by decide) (List.forall_mem_singleton.2 (by show 1 ≠ 2; decide))
    (and_widthMask_word _) waits waits).bind fun _ => ?_
  refine (meets_input _ opcode rfl (by decide)
    (List.forall_mem_cons.2 ⟨by show 2 ≠ 0; decide, List.forall_mem_singleton.2 (by show 1 ≠ 0; decide)⟩)
    o.opcode_and_widthMask waits waits).bind fun _ => ?_
  exact meets_ask o

/-- The answer of a block that was asked is collected, and the handshake is released. -/
theorem meets_collect (o : Order) {limit : Nat} (polls : 0 < limit) :
    Meets (Stands c (Asked s done values o)) (loopDriver.withPollLimit limit).collect
      (fun v => Stands c (Ready s (done ++ [o]) (values ++ [v]) [])) fun _ _ => False := by
  refine (meets_answer o _ polls).bind fun _ => ?_
  refine meets_high.bind fun high => (meets_low high).bind fun low => ?_
  refine (meets_release high low).bind fun _ => (meets_rest _ polls).bind fun _ => ?_
  exact Action.meets_pure fun _ ended => ended

/-- A call succeeds and carries out its order once, and its result is what the store answers. -/
theorem meets_carryOut (o : Order) {limit : Nat} (polls : 0 < limit) :
    Meets (Link.Live (Stands c (Rests s done values)))
      ((loopDriver.withPollLimit limit).carryOut o)
      (fun v => Link.Live (Stands c (Ready s (done ++ [o]) (values ++ [v]) []))) fun _ _ => False := by
  rw [LoopDriver.carryOut_eq]
  apply Meets.locked_unfailing
  exact (meets_place o).bind fun _ => meets_collect o polls

/-- Calls one after the other are carried out in turn, each of them once. -/
theorem outcomes_of_rests {limit : Nat} (polls : 0 < limit) (orders : List Order) {l : Link Overseen}
    (before : Link.Live (Stands c (Rests s done values)) l) :
    ∃ answers : List Value, answers.length = orders.length ∧
      ∀ n < orders.length, ∃ v after,
        ((loopDriver.withPollLimit limit).outcomes l orders)[n]? = some (.ok v, after) ∧
        answers[n]? = some v ∧
        Link.Live (Stands c (Ready s (done ++ orders.take (n + 1)) (values ++ answers.take (n + 1)) []))
          after := by
  induction orders generalizing done values l with
  | nil => exact ⟨[], rfl, fun n none => absurd none (Nat.not_lt_zero n)⟩
  | cons o orders ih =>
    obtain ⟨v, middle, performed, alive, stands⟩ := (meets_carryOut o polls).succeeds before
    have rests : Link.Live (Stands c (Rests s (done ++ [o]) (values ++ [v]))) middle :=
      ⟨alive, stands.reach, stands.spared, stands.holds.toRests⟩
    obtain ⟨answers, length, served⟩ := ih rests
    refine ⟨v :: answers, congrArg Nat.succ length, fun n inside => ?_⟩
    rw [LoopDriver.outcomes, performed]
    cases n with
    | zero => exact ⟨v, middle, rfl, rfl, alive, stands⟩
    | succ n =>
      obtain ⟨w, after, outcome, answer, ended⟩ := served n (Nat.lt_of_succ_lt_succ inside)
      refine ⟨w, after, outcome, answer, ?_⟩
      rw [List.append_assoc, List.append_assoc] at ended
      exact ended

end Calls

/-- The handshake is released at both ends. The orders that fell due so far are `done`, each of them once; a
store that took the same steps from `s` on answered them with `values` and holds what the block holds. -/
structure Attended.Serves (s : Store) (done : List Order) (values : List Value) (t : Overseen) : Prop where
  released : t.board.cl.registers.value Engine.start = 0
  ready : t.board.cl.registers.value Engine.finish = 0
  carriedOut : t.record.filterMap id = done
  answered : s.answers t.record = values
  held : t.board.cl.parameter = s.run t.record

/-- The supervisor calls the command block while its handshake is released, any number of times, and others
do whatever they like between and during the calls but reach the block. Every call succeeds, and the block
serves it as a store does that carries out its order at once. A write gives the value that was written.
Besides, the store only counts the steps with a status that is not zero. -/
theorem calls_are_served_by_store (reach : Reachable c b)
    (released : b.cl.registers.value Engine.start = 0) :
    ∃ d, LoopDriver.ofManifest (b.manifest .supervisor) "cl" = .ok d ∧
      (∀ (limit : Nat) (orders : List Order) (ahead : List (List Event)), 0 < limit →
        (∀ events ∈ ahead, ∀ e ∈ events, e.Spares c .cl) →
        ∃ values : List Value, values.length = orders.length ∧
          (∀ (n : Nat) (command : Command) (v : Value), orders[n]? = some (.write command v) →
            values[n]? = some v) ∧
          ∀ n < orders.length, ∃ (v : Value) (after : Overseen),
            ((d.withPollLimit limit).outcomes (.connect ⟨b, ahead, []⟩) orders)[n]? =
              some (.ok v, .connect after) ∧
            values[n]? = some v ∧
            after.Serves b.cl.parameter (orders.take (n + 1)) (values.take (n + 1))) ∧
      ∀ s : Store, (s .cycles).toInt < 2 ^ 63 - 1 →
        (s.count .cycles).toInt = (s .cycles).toInt + (if s .status = 0 then 0 else 1) ∧
        ∀ command, command ≠ .cycles → s.count command = s command := by
  refine ⟨loopDriver, reach.ofManifest_loop, fun limit orders ahead polls spare => ?_,
    fun s room => ⟨s.toInt_count room, fun _ other => s.count_of_ne other⟩⟩
  have follows : Follows b.cl.parameter [] [] (⟨b, ahead, []⟩ : Overseen).recorded :=
    ⟨reach.fits_cl, rfl, rfl, rfl⟩
  have before : Stands c (Rests b.cl.parameter [] []) (⟨b, ahead, []⟩ : Overseen) :=
    ⟨reach, spare, follows, released⟩
  obtain ⟨values, length, served⟩ := outcomes_of_rests polls orders (Link.live_connect before)
  refine ⟨values, length, fun n command v asked => ?_, fun n inside => ?_⟩
  · have inside : n < orders.length := (List.getElem?_eq_some_iff.1 asked).1
    obtain ⟨w, after, -, -, -, stands⟩ := served n inside
    have follows := stands.holds.toFollows
    have here : (after.bus.record.filterMap id)[n]? = some (.write command v) := by
      rw [show after.bus.record.filterMap id = _ from follows.carriedOut, List.nil_append,
        List.getElem?_take_of_lt (Nat.lt_succ_self n), asked]
    have answer := Store.answers_of_write b.cl.parameter here
    rwa [show Store.answers _ after.bus.record = _ from follows.answered, List.nil_append,
      List.getElem?_take_of_lt (Nat.lt_succ_self n)] at answer
  · obtain ⟨v, ⟨health, after⟩, outcome, answer, alive, stands⟩ := served n inside
    obtain rfl : health = .live := alive
    have ready := stands.holds
    exact ⟨v, after, outcome, answer, ready.released, ready.ready, ready.carriedOut, ready.answered,
      ready.held⟩

/-- On a small board the status is written while a step of the board and an access of the co-processor come
in between, and one poll is enough for each wait. -/
theorem status_written_in_between : Reachable (.small 4) (small 4) ∧
    ∃ d, LoopDriver.ofManifest ((small 4).manifest .supervisor) "cl" = .ok d ∧
      ∃ after : Overseen,
        ((d.withPollLimit 1).outcomes
          (.connect ⟨small 4, [[], [.tick, .access .coprocessor (.readWord 0x100000)]], []⟩)
          [.write .status 1])[0]? = some (.ok 1, .connect after) ∧
        after.record.filterMap id = [.write .status 1] ∧
        after.board.cl.registers.value Engine.start = 0 := by
  have reach : Reachable (.small 4) (small 4) := .assembled (assemble_small 4)
  obtain ⟨d, found, served, -⟩ := calls_are_served_by_store reach rfl
  have spare : ∀ events ∈ [[], [Event.tick, .access .coprocessor (.readWord 0x100000)]],
      ∀ e ∈ events, e.Spares (.small 4) .cl := by
    rintro events present e happens
    have reads : (Event.access .coprocessor (.readWord 0x100000)).Spares (.small 4) .cl :=
      fun region seen _ => regionsOf_of_standard (P := fun _ owner => owner ≠ .cl) (by decide) seen
    simp only [List.mem_cons, List.not_mem_nil, or_false] at present
    rcases present with rfl | rfl
    · nomatch happens
    · simp only [List.mem_cons, List.not_mem_nil, or_false] at happens
      rcases happens with rfl | rfl
      · trivial
      · exact reads
  obtain ⟨values, -, writes, calls⟩ := served 1 [.write .status 1] _ Nat.one_pos spare
  obtain ⟨v, after, outcome, answer, serves⟩ := calls 0 Nat.one_pos
  obtain rfl : v = 1 := Option.some.inj (answer.symm.trans (writes 0 .status 1 rfl))
  exact ⟨reach, d, found, after, outcome, serves.carriedOut, serves.released⟩

end Board

end InstrumentBus
