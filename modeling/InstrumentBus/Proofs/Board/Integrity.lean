import InstrumentBus.Proofs.Board.Player
import InstrumentBus.Proofs.Board.Timeouts
import InstrumentBus.Proofs.Waveform.Sessions

/-!
# What becomes of the frames of the DAC

A board is run by its drivers: the one of the DAC's controller and of the converter, the arbiter in front of
it and the driver of the player, with anything else in between that does not write to the controller
(`Conducted`). A ledger is kept along the run. It is faithful (`Conducted.sane`), because whoever loads a
frame does so while no session is open, except for the player. So a session shifts the frame that it was
armed with unless the player put another in its place (`session_shifts_as_armed_iff`).
-/

namespace InstrumentBus.Board

open InstrumentBus.Action (Keeps)
open Spi (Controller)
open Transport (ReadsKeep WritesKeep)
open Waveform (Ledger Rig)

variable {c : Config} {b : Board}

/-! ## Boards with a ledger -/

/-- A board with the ledger of its DAC's sessions. -/
structure Audited where
  board : Board
  ledger : Ledger

namespace Audited

/-- An audit that begins with nobody having used the DAC. -/
def begin (b : Board) : Audited :=
  { board := b, ledger := .empty }

/-- The audited board after it moved on. -/
def note (s : Audited) (after : Board) : Audited :=
  { board := after, ledger := s.ledger.note s.board.rig after.rig.controller }

/-- An access of the supervisor; one that fails moves nothing. -/
def observe {α : Type} (s : Audited) (reach : View → Except Fault α × View) :
    Except Fault α × Audited :=
  match reach (View.mk .supervisor s.board) with
  | (.ok v, after) => (.ok v, s.note after.board)
  | (.error e, after) => (.error e, { s with board := after.board })

instance : Transport Audited where
  readWord s addr := s.observe fun v => Transport.readWord v addr
  writeWord s addr w := s.observe fun v => Transport.writeWord v addr w
  readByte s addr := s.observe fun v => Transport.readByte v addr
  writeByte s addr v := s.observe fun t => Transport.writeByte t addr v

/-- The audited board after an event. -/
def step (s : Audited) : Event → Audited
  | .tick => s.note s.board.tick
  | .access side op =>
    match s.board.perform side op with
    | (.ok _, after) => s.note after
    | (.error _, after) => { s with board := after }
  | e => { s with board := s.board.step e }

end Audited

/-- An event that writes nothing to the controller of the DAC. -/
def Event.SparesDac (c : Config) : Event → Prop
  | .access side op => op.isWrite = true →
    ∀ region ∈ regionsOf c side, op.addr.wordBase ∈ region → region.owner ≠ .dac0
  | _ => True

/-- What the drivers of a board do to its DAC: the operations of the driver of its controller and of the
converter, the hand-over to a master, and the operations of the player's driver. -/
inductive Call (m : Manifest) : {α : Type} → Action (Link Audited) α → Prop
  | operate {id limit : Nat} {d : SpiDriver} {g : Grant} {α : Type} {a : Action (Link Audited) α} :
    SpiDriver.ofManifest id m "dac0" = .ok d → (d.withPollLimit limit).Operation g a → Call m a
  | acquire {id : Nat} {arbiter : Arbiter} (master : Nat) :
    Arbiter.ofManifest id m "dac0" = .ok arbiter → Call m (arbiter.acquire master)
  | start {id ramMaster dacMaster limit : Nat} {d : WaveformDriver} (g : Grant) (samples : List Word)
      (spacing : Word) (loop : Bool) :
    WaveformDriver.ofManifest id m "wf0" ramMaster dacMaster = .ok d →
      Call m ((d.withPollLimit limit).start g samples spacing loop)
  | stop {id ramMaster dacMaster limit : Nat} {d : WaveformDriver} :
    WaveformDriver.ofManifest id m "wf0" ramMaster dacMaster = .ok d →
      Call m (d.withPollLimit limit).stop
  | abort {id ramMaster dacMaster limit : Nat} {d : WaveformDriver} :
    WaveformDriver.ofManifest id m "wf0" ramMaster dacMaster = .ok d →
      Call m (d.withPollLimit limit).abort

/-- The runs of a board in which only drivers and the player use the DAC. -/
inductive Conducted (c : Config) : Audited → Prop
  | assembled {b : Board} : assemble c = .ok b → Conducted c (.begin b)
  | event {s : Audited} (e : Event) : Conducted c s → e.SparesDac c → Conducted c (s.step e)
  | call {s : Audited} {α : Type} {a : Action (Link Audited) α} :
    Conducted c s → Call (s.board.manifest .supervisor) a →
      Conducted c (a.perform (Link.connect s)).2.bus

/-! ## One access -/

/-- A reachable board with a faithful ledger. -/
structure Sane (c : Config) (s : Audited) : Prop where
  reach : Reachable c s.board
  faithful : s.ledger.Faithful .powerOn s.board.rig.controller

variable {s : Audited}

/-- What a transaction of a processor is to the rig is fair, unless it writes a frame to the controller. -/
theorem Block.fair_of_rigEvent? {block : Block} {side : Side} {req : Request} {event : Rig.Event} {r : Rig}
    (player : r.dac.master = dacPlayerMaster) (reaches : block.rigEvent? side req = some event)
    (allowed : block = .dac0 → (∃ data lanes, req = .write (Layout.offset Controller.toSlave) data lanes) →
      r.controller.leftOver = []) : event.Fair r := by
  have others {master : Nat} (other : master ≠ dacPlayerMaster) : master ≠ r.dac.master :=
    fun same => other (same.trans player)
  cases side with
  | supervisor =>
    cases block with
    | dac0 => cases reaches; exact ⟨others (by decide), fun _ => allowed rfl⟩
    | dac0Select => cases reaches; trivial
    | wf0RamSelect => cases reaches; trivial
    | wf0 => cases reaches; trivial
    | wf0Ram => cases reaches; trivial
    | _ => cases reaches
  | coprocessor =>
    cases block with
    | dac0 => cases reaches; exact ⟨others (by decide), fun _ => allowed rfl⟩
    | _ => cases reaches

/-- An access of a processor keeps the ledger faithful, if it writes no frame while a session is open. -/
theorem Sane.access (sane : Sane c s) (side : Side) (op : Op)
    (fair : ∀ region ∈ (s.board.map side).regions, op.addr.wordBase ∈ region → region.owner = .dac0 →
      op.isWrite = true → region.offsetOf op.addr.wordBase = Layout.offset Controller.toSlave →
        s.board.rig.tick.controller.leftOver = []) :
    Sane c (s.step (.access side op)) := by
  have reach := Reachable.step (.access side op) sane.reach
  rcases sane.reach.rig_perform side op with ⟨⟨fault, failed⟩, same⟩ |
    ⟨region, present, inside, ⟨w, succeeded⟩, after⟩
  · have outcome : s.board.perform side op = (.error fault, s.board) := Prod.ext failed same
    rw [Audited.step, outcome]
    exact sane
  · have outcome : s.board.perform side op = (.ok w, (s.board.perform side op).2) :=
      Prod.ext succeeded rfl
    rw [Audited.step, outcome]
    refine ⟨reach, ?_⟩
    show (s.ledger.note s.board.rig (s.board.perform side op).2.rig.controller).Faithful .powerOn
      (s.board.perform side op).2.rig.controller
    rw [after]
    refine sane.faithful.access sane.reach.rig.1 _ fun event reaches => ?_
    have player : s.board.rig.tick.dac.master = dacPlayerMaster := by
      rw [← rig_tick]
      rfl
    refine Block.fair_of_rigEvent? player reaches fun owner writes => ?_
    obtain ⟨data, lanes, writes⟩ := writes
    obtain ⟨isWrite, place⟩ := Op.isWrite_of_request writes
    exact fair region present inside owner isWrite place

theorem Sane.tick (sane : Sane c s) : Sane c (s.step .tick) := by
  refine ⟨.step .tick sane.reach, ?_⟩
  show (s.ledger.note s.board.rig s.board.tick.rig.controller).Faithful .powerOn
    s.board.tick.rig.controller
  rw [rig_tick]
  exact sane.faithful.access sane.reach.rig.1 none fun event absent => absurd absent.symm (by simp)

/-- An event that writes nothing to the controller keeps the ledger faithful. -/
theorem Sane.event (sane : Sane c s) {e : Event} (spares : e.SparesDac c) : Sane c (s.step e) := by
  cases e with
  | tick => exact sane.tick
  | access side op =>
    refine sane.access side op fun region present inside owner writes _ => ?_
    exact absurd owner (spares writes region (sane.reach.mem_map.1 present) inside)
  | sample raw => exact ⟨.step (.sample raw) sane.reach, sane.faithful⟩
  | core activity => exact ⟨.step (.core activity) sane.reach, sane.faithful⟩

/-! ## Accesses of the drivers -/

theorem Audited.readWord_eq (s : Audited) (addr : Addr) :
    (Transport.readWord s addr).2 = s.step (.access .supervisor (.readWord addr)) := by
  have viewed : Transport.readWord (View.mk .supervisor s.board) addr =
      (s.board.readWord .supervisor addr).map id (View.mk .supervisor) := rfl
  have performed : s.board.perform .supervisor (.readWord addr) =
      s.board.readWord .supervisor addr := rfl
  show (s.observe fun v => Transport.readWord v addr).2 = _
  rw [observe, step, viewed, performed]
  rcases s.board.readWord .supervisor addr with ⟨_ | _, after⟩ <;> rfl

theorem Audited.writeWord_eq (s : Audited) (addr : Addr) (w : Word) :
    (Transport.writeWord s addr w).2 = s.step (.access .supervisor (.writeWord addr w)) := by
  have viewed : Transport.writeWord (View.mk .supervisor s.board) addr w =
      (s.board.writeWord .supervisor addr w).map id (View.mk .supervisor) := rfl
  have performed : s.board.perform .supervisor (.writeWord addr w) =
      (s.board.writeWord .supervisor addr w).map (Except.map fun _ => 0) id := rfl
  show (s.observe fun v => Transport.writeWord v addr w).2 = _
  rw [observe, step, viewed, performed]
  rcases s.board.writeWord .supervisor addr w with ⟨_ | _, after⟩ <;> rfl

/-- The audit carries the accesses of the supervisor to its board. -/
theorem fronts_audited (c : Config) : Fronts c Audited.board (Sane c) := by
  refine ⟨fun sane => sane.reach, fun {s} addr _ => ?_, fun {s} addr w _ => ?_⟩
  · have viewed : Transport.readWord (View.mk .supervisor s.board) addr =
        (s.board.readWord .supervisor addr).map id (View.mk .supervisor) := rfl
    show _ = (s.observe fun v => Transport.readWord v addr).map id _
    rw [Audited.observe, viewed]
    rcases s.board.readWord .supervisor addr with ⟨_ | _, after⟩ <;> rfl
  · have viewed : Transport.writeWord (View.mk .supervisor s.board) addr w =
        (s.board.writeWord .supervisor addr w).map id (View.mk .supervisor) := rfl
    show _ = (s.observe fun v => Transport.writeWord v addr w).map id _
    rw [Audited.observe, viewed]
    rcases s.board.writeWord .supervisor addr w with ⟨_ | _, after⟩ <;> rfl

theorem readsKeep_sane (c : Config) : ReadsKeep (Sane c) := by
  intro addr s sane
  rw [Audited.readWord_eq]
  exact sane.access _ _ fun _ _ _ _ writes => by cases writes

/-- A write where the controller takes no frame keeps the ledger faithful. -/
theorem Sane.writeWord (sane : Sane c s) {addr : Addr}
    (fair : ∀ region ∈ (s.board.map .supervisor).regions, addr.wordBase ∈ region →
      region.owner = .dac0 → region.offsetOf addr.wordBase = Layout.offset Controller.toSlave →
        s.board.rig.tick.controller.leftOver = []) (w : Word) :
    Sane c (Transport.writeWord s addr w).2 := by
  rw [Audited.writeWord_eq]
  exact sane.access _ _ fun region present inside owner _ place => fair region present inside owner place

/-! ## The drivers -/

/-- An exchange of the DAC's driver keeps the ledger faithful: it loads its frame while no session is
open. -/
theorem keeps_exchange (c : Config) (id limit : Nat) (g : Grant) (frame : Word) :
    Keeps (Sane c) (((Port.dac0.driver c id).withPollLimit limit).exchange g frame) := by
  have meets := (fronts_audited c).meets_exchange (readsKeep_sane c) ?_ ?_ id limit g frame
  · refine Action.keeps_iff_meets.2 (meets.mono (fun _ sane => sane) (fun _ _ sane => sane) ?_)
    rintro e s (⟨sane, -⟩ | owns)
    · exact sane
    · exact owns.kept
  · intro w s sane
    refine sane.writeWord (fun region present inside owner place => ?_) w
    have arm := sane.reach.reaches_register (sane.reach.holds_port (p := .dac0) Controller.arm_field)
      present inside
    rw [arm.1, arm.2] at place
    exact absurd place (by decide)
  · rintro w s ⟨sane, owned, idle, low⟩
    refine sane.writeWord (fun region present inside owner place => ?_) w
    -- the supervisor is connected, so the step before the write leaves the controller as it is
    have apart : ¬s.board.rig.HasDac := fun here =>
      absurd (owned.symm.trans here.symm : supervisorMaster = dacPlayerMaster) (by decide)
    have still : s.board.rig.controller.tick = s.board.rig.controller :=
      Controller.tick_of_idle idle low
    have transfer : s.board.rig.controller.transfer = .idle := idle
    have released : s.board.rig.controller.armed = false := low
    rw [Rig.controller_tick_of_apart apart, still, Controller.leftOver, transfer, released]
    rfl

/-- The hand-over of the DAC and the driver of the player keep the ledger faithful. -/
theorem writesKeep_sane {addr : Addr}
    (elsewhere : ∀ s, Sane c s → ∀ region ∈ (s.board.map .supervisor).regions,
      addr.wordBase ∈ region → region.owner ≠ .dac0) : WritesKeep (Sane c) addr :=
  fun w s sane => sane.writeWord
    (fun region present inside owner _ => absurd owner (elsewhere s sane region present inside)) w

theorem writesKeep_player (c : Config) (id ramMaster dacMaster limit : Nat) (addr : Addr)
    (writes : ((playerDriver c id ramMaster dacMaster).withPollLimit limit).Writes addr) :
    WritesKeep (Sane c) addr := by
  have here : (playerDriver c id ramMaster dacMaster).Writes addr := writes
  refine writesKeep_sane fun s sane region present inside => ?_
  rcases sane.reach.playerDriver_writes here present inside with owner | owner | owner
  · rw [owner]; decide
  · rw [owner]; decide
  · rw [owner]; decide

theorem writesKeep_select (c : Config) (id : Nat) :
    WritesKeep (Sane c) (Port.dac0.driver c id).arbiter.selection.addr := by
  refine writesKeep_sane fun s sane region present inside => ?_
  rw [(sane.reach.reaches_register (sane.reach.holds_select .dac0 rfl) present inside).1]
  decide

/-- What the drivers do to the DAC keeps the ledger faithful. -/
theorem Sane.call (sane : Sane c s) {α : Type} {a : Action (Link Audited) α}
    (call : Call (s.board.manifest .supervisor) a) : Sane c (a.perform (Link.connect s)).2.bus := by
  have kept {α : Type} {a : Action (Link Audited) α} (keeps : Keeps (Link.Live (Sane c)) a) :
      Sane c (a.perform (Link.connect s)).2.bus := (keeps _ (Link.live_connect sane)).2
  have reads := readsKeep_sane c
  cases call with
  | operate made operation =>
    obtain rfl := Except.ok.inj ((sane.reach.ofManifest_port .dac0 _).symm.trans made)
    exact kept (operation.keeps fun frame => keeps_exchange c _ _ _ frame)
  | acquire master made =>
    obtain rfl := Except.ok.inj ((sane.reach.ofManifest_arbiter .dac0 _).symm.trans made)
    exact kept (Arbiter.keeps_connect reads (writesKeep_select c _) master).locked
  | start g samples spacing loop made =>
    obtain rfl := Except.ok.inj ((sane.reach.ofManifest_player _ _ _).symm.trans made)
    exact kept (WaveformDriver.keeps_start reads (writesKeep_player c _ _ _ _) g samples spacing loop)
  | stop made =>
    obtain rfl := Except.ok.inj ((sane.reach.ofManifest_player _ _ _).symm.trans made)
    exact kept (WaveformDriver.keeps_stop reads (writesKeep_player c _ _ _ _))
  | abort made =>
    obtain rfl := Except.ok.inj ((sane.reach.ofManifest_player _ _ _).symm.trans made)
    exact kept (WaveformDriver.keeps_abort (writesKeep_player c _ _ _ _))

theorem Conducted.sane (conducted : Conducted c s) : Sane c s := by
  induction conducted with
  | assembled assembled =>
    refine ⟨.assembled assembled, ?_⟩
    obtain ⟨_, _, -, -, -, rfl⟩ := assemble_eq_ok_iff.1 assembled
    exact Ledger.faithful_reset .powerOn c.spiCycles
  | event e _ spares ih => exact ih.event spares
  | call _ call ih => exact ih.call call

/-! ## The frames of the sessions -/

/-- In every run of a board in which only drivers and the player use the DAC, whatever waits run out and
whenever it is handed over, a session shifts the frame that it was armed with, except where the player
copied a sample into the controller while the session was open: then it shifts the sample. So it shifts the
frame that it was armed with just if the player did not replace it by another one. The converter takes
these frames and no others, and the session that is still open is to shift its frame by the same rule. -/
theorem session_shifts_as_armed_iff (conducted : Conducted c s) :
    (∀ session frame, (session, frame) ∈ s.ledger.ended →
      frame = session.replaced.getD session.armed ∧
        (frame = session.armed ↔
          session.replaced = none ∨ session.replaced = some session.armed)) ∧
    s.board.dac = SerialDevice.feed .powerOn (s.ledger.ended.map Prod.snd) ∧
    (s.board.controller .dac0).leftOver =
      (s.ledger.session.map fun session => session.replaced.getD session.armed).toList := by
  obtain ⟨-, pending, ended, taken⟩ := conducted.sane
  refine ⟨fun session frame listed => ?_, taken, pending⟩
  have shifted : frame = session.replaced.getD session.armed := ended session frame listed
  refine ⟨shifted, ?_⟩
  rw [shifted]
  cases session.replaced with
  | none => exact iff_of_true rfl (.inl rfl)
  | some sample => simp

/-- The small board after the supervisor sent a frame. -/
def sent : Audited :=
  let d := Port.dac0.driver (.small 2) 0
  ((d.send ⟨d.arbiter, supervisorIndex⟩ 0x300005).perform (.connect (.begin (small 2)))).2.bus

theorem conducted_sent : Conducted (.small 2) sent := by
  have start : Conducted (.small 2) (.begin (small 2)) := .assembled (assemble_small 2)
  have call : Call ((small 2).manifest .supervisor)
      (((Port.dac0.driver (.small 2) 0).withPollLimit standardPollLimit).send
        ⟨(Port.dac0.driver (.small 2) 0).arbiter, supervisorIndex⟩ 0x300005) :=
    .operate (start.sane.reach.ofManifest_port .dac0 0) (.send _ 0x300005)
  exact start.call call

/-- The frame that was sent is the one that is shifted, and the one that the converter took. -/
theorem sent_frame_is_shifted : ∃ session frame, Conducted (.small 2) sent ∧
    sent.ledger.ended = [(session, frame)] ∧ session.armed = 0x300005 ∧ frame = session.armed ∧
    sent.board.dac = SerialDevice.feed .powerOn [0x300005] := by
  have listed : sent.ledger.ended = [({ armed := 0x300005, replaced := none }, 0x300005)] := by
    decide +kernel
  obtain ⟨shifts, taken, -⟩ := session_shifts_as_armed_iff conducted_sent
  rw [listed] at shifts taken
  have asArmed := (shifts _ _ List.mem_cons_self).2.2 (.inl rfl)
  exact ⟨_, _, conducted_sent, listed, rfl, asArmed, taken⟩

/-- The small board after a supervisor sent a frame, gave up after three polls and handed the DAC to the
player, which started to play the sample 7. -/
def handedOver : Audited :=
  let d := Port.dac0.driver (.small 40) 0
  let player := playerDriver (.small 40) 0 ramPlayerMaster dacPlayerMaster
  let tried := ((d.withPollLimit 3).send ⟨d.arbiter, supervisorIndex⟩ 0x300005).perform
    (.connect (.begin (small 40)))
  let handed := (d.arbiter.acquire dacPlayerMaster).perform (.connect tried.2.bus)
  ((player.start ⟨d.arbiter, dacPlayerMaster⟩ [7] 0 false).perform (.connect handed.2.bus)).2.bus

theorem conducted_handedOver : Conducted (.small 40) handedOver := by
  have start : Conducted (.small 40) (.begin (small 40)) := .assembled (assemble_small 40)
  have send : Call ((small 40).manifest .supervisor)
      (((Port.dac0.driver (.small 40) 0).withPollLimit 3).send
        ⟨(Port.dac0.driver (.small 40) 0).arbiter, supervisorIndex⟩ 0x300005) :=
    .operate (start.sane.reach.ofManifest_port .dac0 0) (.send _ 0x300005)
  have tried := start.call send
  have handed := tried.call (.acquire dacPlayerMaster (tried.sane.reach.ofManifest_arbiter .dac0 0))
  have play {m : Manifest} (made : WaveformDriver.ofManifest 0 m "wf0" ramPlayerMaster dacPlayerMaster =
      .ok (playerDriver (.small 40) 0 ramPlayerMaster dacPlayerMaster)) : Call m
      (((playerDriver (.small 40) 0 ramPlayerMaster dacPlayerMaster).withPollLimit standardPollLimit).start
        ⟨(Port.dac0.driver (.small 40) 0).arbiter, dacPlayerMaster⟩ [7] 0 false) :=
    .start _ [7] 0 false made
  exact handed.call (play (handed.sane.reach.ofManifest_player 0 ramPlayerMaster dacPlayerMaster))

theorem Conducted.ticks (conducted : Conducted c s) (n : Nat) :
    Conducted c ((List.replicate n Event.tick).foldl Audited.step s) := by
  induction n generalizing s with
  | zero => exact conducted
  | succ n ih => exact ih (.event .tick conducted trivial)

/-- The session of the supervisor shifts the sample of the player. -/
theorem sample_goes_out_in_foreign_session : ∃ c s session frame, Conducted c s ∧
    (session, frame) ∈ s.ledger.ended ∧ frame ≠ session.armed := by
  have shifted : (({ armed := 0x300005, replaced := some 0x100007 } : Waveform.Session), 0x100007) ∈
      ((List.replicate 24 Event.tick).foldl Audited.step handedOver).ledger.ended := by
    decide +kernel
  exact ⟨_, _, _, _, conducted_handedOver.ticks 24, shifted, by decide⟩

end InstrumentBus.Board
