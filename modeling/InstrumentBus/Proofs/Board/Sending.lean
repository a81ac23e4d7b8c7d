import InstrumentBus.Proofs.Board.Serial
import InstrumentBus.Proofs.Driver.Exchange
import InstrumentBus.Proofs.Driver.Mirror

/-!
# Frames on the serial ports of a board

The supervisor's driver of a port works on whatever earlier users left behind in the controller: a session
that was never released, or a frame that is still to be shifted. `send_exchanges_one_frame` says when it
succeeds and what the device sees of it. A watched view records the frames that a device takes while
accesses are made through it.
-/

namespace InstrumentBus

/-- The frames that a device took between two states of its controller that are a step apart: a transfer is
complete after the step in which its frame is shifted, and in no other. -/
def Spi.Controller.taken {δ : Type} (before after : Controller δ) : List Word :=
  if before.transfer = .busy 0 ∧ after.transfer = .done then [before.frame] else []

theorem Spi.Controller.taken_eq_due {δ : Type} [SerialDevice δ] {before after : Controller δ}
    (step : after.transfer = before.tick.transfer) : before.taken after = before.due := by
  rw [taken, step, transfer_tick]
  cases transfer : before.transfer with
  | idle => simp [due, transfer]
  | busy left => cases left <;> simp [due, transfer, Transfer.next]
  | done => simp [due, transfer]

namespace Board

/-! ## Watched views -/

/-- A view with a record of the frames that the device on a port took, the earliest first. -/
structure Watched (p : Port) where
  view : View
  frames : List Word

namespace Watched

variable {p : Port}

/-- A watch that begins now. -/
def begin (p : Port) (view : View) : Watched p :=
  { view, frames := [] }

/-- An access through the view, with the frame that the device takes meanwhile. -/
def observe {α : Type} (w : Watched p) (reach : View → Except Fault α × View) :
    Except Fault α × Watched p :=
  let (outcome, view) := reach w.view
  (outcome,
    { view, frames := w.frames ++ (w.view.board.controller p).taken (view.board.controller p) })

instance : Transport (Watched p) where
  readWord w addr := w.observe fun v => Transport.readWord v addr
  writeWord w addr x := w.observe fun v => Transport.writeWord v addr x
  readByte w addr := w.observe fun v => Transport.readByte v addr
  writeByte w addr x := w.observe fun v => Transport.writeByte v addr x

/-- A watch does not change what it watches. -/
theorem mirrors_view : Transport.Mirrors (view : Watched p → View) :=
  ⟨fun _ _ => rfl, fun _ _ _ => rfl⟩

end Watched

/-! ## The driver of a port on a watched view -/

variable {c : Config} {b : Board} {p : Port}

/-- A watched view of the supervisor leads to the controller `k`, whose device took the frames `seen`. -/
def Shows (c : Config) (p : Port) (w : Watched p) (k : Spi.Controller p.Device) (seen : List Word) :
    Prop :=
  ∃ b, w = { view := View.mk .supervisor b, frames := seen } ∧ Leads c p b k

/-- The watch records what is due in the step of an access. -/
theorem Leads.observe {k k' : Spi.Controller p.Device} {after : Board} (before : Leads c p b k)
    (left : Leads c p after k') (step : k'.transfer = k.tick.transfer) {α : Type}
    (reach : View → Except Fault α × View) {r : Except Fault α}
    (performed : reach (View.mk .supervisor b) = (r, View.mk .supervisor after)) (seen : List Word) :
    ({ view := View.mk .supervisor b, frames := seen } : Watched p).observe reach =
      (r, { view := View.mk .supervisor after, frames := seen ++ k.due }) := by
  have taken : (b.controller p).taken (after.controller p) = k.due := by
    rw [before.controller, left.controller]
    exact Spi.Controller.taken_eq_due step
  rw [← taken]
  simp only [Watched.observe, performed]

variable {i : Nat} {f : Field}

theorem gets_port (found : (Spi.Controller.layout (p.frameWidth c)).fields[i]? = some f) :
    SpiDriver.Gets (Shows c p) (refOf (p.region c) i f) i := by
  rintro _ k seen ⟨b, rfl, leads⟩
  obtain ⟨after, reads, left⟩ := leads.readWord found
  have observed : Transport.readWord
      ({ view := View.mk .supervisor b, frames := seen } : Watched p) (refOf (p.region c) i f).addr =
      (.ok (k.tick.registers.value i),
        { view := View.mk .supervisor after, frames := seen ++ k.due }) :=
    leads.observe left rfl (fun v => Transport.readWord v _) reads seen
  have within : k.tick.registers.value i &&& widthMask f.width = k.tick.registers.value i :=
    left.sound.fits.value_and_widthMask (left.sound.field found)
  have got := RegisterRef.perform_get_of_readWord observed
  rw [show (refOf (p.region c) i f).width = f.width from rfl, within] at got
  exact ⟨_, got, after, rfl, left⟩

theorem sets_port (found : (Spi.Controller.layout (p.frameWidth c)).fields[i]? = some f)
    (writable : f.access = .readWrite) :
    SpiDriver.Sets (Shows c p) (refOf (p.region c) i f) i := by
  rintro _ k seen w ⟨b, rfl, leads⟩
  obtain ⟨after, written, left⟩ := leads.writeWord found (w &&& widthMask f.width)
  have observed : Transport.writeWord
      ({ view := View.mk .supervisor b, frames := seen } : Watched p) (refOf (p.region c) i f).addr
        (w &&& widthMask f.width) =
      (.ok (), { view := View.mk .supervisor after, frames := seen ++ k.due }) :=
    leads.observe left rfl (fun v => Transport.writeWord v _ _) written seen
  have whole : k.tick.put i (w &&& widthMask f.width) = k.tick.put i w :=
    leads.tick.sound.put_and_widthMask (leads.tick.sound.field found) w
  rw [whole] at left
  exact ⟨_, RegisterRef.perform_set_of_granted (checkWritable_refOf writable) observed, after, rfl, left⟩

/-- The driver of a port works on the controller of the port. -/
theorem drives_port (c : Config) (p : Port) (id limit : Nat) :
    ((p.driver c id).withPollLimit limit).Drives (Shows c p) (p.frameWidth c) c.spiCycles := by
  refine ⟨?_, ?_, gets_port Spi.Controller.readyToArm_field, gets_port Spi.Controller.finished_field,
    gets_port Spi.Controller.fromSlave_field, sets_port Spi.Controller.arm_field rfl,
    sets_port Spi.Controller.toSlave_field rfl⟩
  · rintro _ k seen ⟨b, rfl, leads⟩
    exact leads.sound
  · rintro _ k seen ⟨b, rfl, leads⟩
    obtain ⟨after, reads, left⟩ := leads.readWord_select
    have observed : Transport.readWord
        ({ view := View.mk .supervisor b, frames := seen } : Watched p)
        (p.driver c id).arbiter.selection.addr =
        (.ok 0, { view := View.mk .supervisor after, frames := seen ++ k.due }) :=
      leads.observe left rfl (fun v => Transport.readWord v _) reads seen
    have owner := Arbiter.perform_owner_of_readWord observed
    have first (mask : Word) : ((0 : Word) &&& mask).toNat = supervisorIndex := by
      simp [supervisorIndex]
    rw [first] at owner
    exact ⟨_, owner, after, rfl, left⟩

/-! ## One exchange -/

/-- On the board itself an exchange comes out as it does on a watched view. -/
theorem Leads.performs_exchange {k : Spi.Controller p.Device} (leads : Leads c p b k) {id : Nat} {g : Grant}
    (issued : g.arbiter.id = (p.driver c id).arbiter.id) (holder : g.master = supervisorIndex)
    (enough : c.spiCycles + 2 ≤ standardPollLimit) (w : Word) :
    ∃ (after : Board) (k' : Spi.Controller p.Device),
      ((p.driver c id).exchange g w).perform (View.mk .supervisor b) =
        (.ok ((SerialDevice.exchange (SerialDevice.feed k.device k.leftOver)
          (w &&& widthMask (p.frameWidth c))).1 &&& widthMask (p.frameWidth c)), View.mk .supervisor after) ∧
      Leads c p after k' ∧ k'.transfer = .done ∧
      k'.device = SerialDevice.feed k.device (k.leftOver ++ [w &&& widthMask (p.frameWidth c)]) := by
  have start : Shows c p (.begin p (View.mk .supervisor b)) k [] := ⟨b, rfl, leads⟩
  obtain ⟨_, watched, k', ⟨⟨after, rfl, left⟩, device⟩, done, -⟩ :=
    (drives_port c p id standardPollLimit).exchange_ok issued holder start w enough
  have plain := Watched.mirrors_view.exchange ((p.driver c id).withPollLimit standardPollLimit) g w
    (.begin p (View.mk .supervisor b))
  rw [watched] at plain
  exact ⟨after, k', plain, left, done, device⟩

/-- While the supervisor is connected to a port and holds a grant of the driver's arbiter, a frame is sent
just if the driver may poll `spiCycles + 2` times, whatever an earlier session left behind; otherwise a wait
runs out. The device takes at most one frame that was left over and then the frame that was sent, cut to the
port's width, and its answer to this frame is the result. The session ends released, and the controller is
ready again after the next step of the board. Watching the frames changes nothing. -/
theorem send_exchanges_one_frame (reach : Reachable c b) (p : Port) (id : Nat) :
    ∃ d, SpiDriver.ofManifest id (b.manifest .supervisor) p.shared.name = .ok d ∧
      ∀ (g : Grant) (w : Word) (limit : Nat), g.arbiter.id = d.arbiter.id →
        g.master = supervisorIndex → b.owner p.shared = supervisorMaster →
        ∃ (r : Except DriverError Word) (after : View) (frames : List Word),
          ((d.withPollLimit limit).send g w).perform (Link.connect (View.mk .supervisor b)) =
            (r, Link.connect after) ∧
          ((d.withPollLimit limit).send g w).perform
              (Link.connect (Watched.begin p (View.mk .supervisor b))) =
            (r, Link.connect { view := after, frames }) ∧
          ((∃ v, r = .ok v) ↔ c.spiCycles + 2 ≤ limit) ∧
          (∀ e, r = .error e → ∃ condition, e = .timeout condition limit) ∧
          ∀ v, r = .ok v → ∃ leftOver : List Word, leftOver.length ≤ 1 ∧
            frames = leftOver ++ [w &&& widthMask (p.frameWidth c)] ∧
            (after.board.controller p).device = SerialDevice.feed (b.controller p).device frames ∧
            v = (SerialDevice.exchange (SerialDevice.feed (b.controller p).device leftOver)
              (w &&& widthMask (p.frameWidth c))).1 &&& widthMask (p.frameWidth c) ∧
            (after.board.controller p).registers.value Spi.Controller.arm = 0 ∧
            (after.board.tick.controller p).registers.value Spi.Controller.readyToArm = 1 := by
  refine ⟨_, reach.ofManifest_port p id, fun g w limit issued holder owned => ?_⟩
  have leads : Leads c p b (b.controller p) := ⟨reach, owned, rfl⟩
  have start : Shows c p (.begin p (View.mk .supervisor b)) (b.controller p) [] := ⟨b, rfl, leads⟩
  have drives := drives_port c p id limit
  -- the exchange is followed on the watched view; on the view itself it comes out the same
  have plain := Watched.mirrors_view.exchange ((p.driver c id).withPollLimit limit) g w
    (.begin p (View.mk .supervisor b))
  have sent {τ : Type} [Transport τ] {t after : τ} {r : Except DriverError Word}
      (exchanged : (((p.driver c id).withPollLimit limit).exchange g w).perform t = (r, after)) :
      (((p.driver c id).withPollLimit limit).send g w).perform (Link.connect t) =
        (r, Link.connect after) := by
    rw [SpiDriver.send, Link.perform_locked, exchanged]
    rfl
  by_cases enough : c.spiCycles + 2 ≤ limit
  · obtain ⟨_, watched, k, ⟨⟨after, rfl, left⟩, fed⟩, done, low⟩ :=
      drives.exchange_ok issued holder start w enough
    rw [watched] at plain
    refine ⟨_, _, _, sent plain, sent watched, iff_of_true ⟨_, rfl⟩ enough, fun e failed => ?_,
      fun v delivered => ?_⟩
    · cases failed
    · cases delivered
      refine ⟨_, (b.controller p).length_leftOver_le, rfl, ?_, rfl, ?_, ?_⟩
      · rw [left.controller, fed]
        rfl
      · rw [left.controller, low]
      · have released : k.armed = false := by
          rw [Spi.Controller.armed, low]
          rfl
        have ready : k.tick.transfer = .idle := by
          rw [Spi.Controller.transfer_tick, done, released]
          rfl
        rw [left.tick.controller, left.tick.sound.ready, if_pos ready]
  · obtain ⟨condition, ⟨view, frames⟩, watched⟩ :=
      drives.exchange_timeout issued holder start w (Nat.lt_of_not_le enough)
    rw [watched] at plain
    refine ⟨_, view, frames, sent plain, sent watched, iff_of_false ?_ enough, fun e failed => ?_,
      fun v delivered => ?_⟩
    · rintro ⟨v, delivered⟩
      cases delivered
    · cases failed
      exact ⟨condition, rfl⟩
    · cases delivered

/-- An earlier user raised `arm` of the DAC's controller on the usual board and left. Six polls are enough
to send a frame all the same, and five are not. -/
theorem frame_after_abandoned_session : ∃ b d, Reachable .standard b ∧
    (b.controller .dac0).armed = true ∧
    SpiDriver.ofManifest 7 (b.manifest .supervisor) "dac0" = .ok d ∧
    (∃ v after, ((d.withPollLimit 6).send ⟨d.arbiter, 0⟩ 0x1080001).perform
      (Link.connect (View.mk .supervisor b)) = (.ok v, Link.connect after)) ∧
    ∃ condition after, ((d.withPollLimit 5).send ⟨d.arbiter, 0⟩ 0x1080001).perform
      (Link.connect (View.mk .supervisor b)) = (.error (.timeout condition 5), Link.connect after) := by
  obtain ⟨reset, assembled⟩ := assemble_standard
  have supervised : reset.owner .dac0 = supervisorMaster := by
    obtain ⟨_, _, _, _, _, rfl⟩ := assemble_eq_ok_iff.1 assembled
    rfl
  have leads : Leads .standard .dac0 reset (reset.controller .dac0) :=
    ⟨.assembled assembled, supervised, rfl⟩
  obtain ⟨b, -, left⟩ := leads.writeWord Spi.Controller.arm_field 1
  obtain ⟨d, resolved, sends⟩ := send_exchanges_one_frame left.reach .dac0 7
  refine ⟨b, d, left.reach, ?_, resolved, ?_, ?_⟩
  · rw [left.controller, leads.tick.sound.armed_put_arm]
    rfl
  · obtain ⟨r, after, -, sent, -, succeeds, -⟩ := sends ⟨d.arbiter, 0⟩ 0x1080001 6 rfl rfl left.owned
    obtain ⟨v, rfl⟩ := succeeds.2 (by decide)
    exact ⟨v, after, sent⟩
  · obtain ⟨r, after, -, sent, -, succeeds, fails, -⟩ :=
      sends ⟨d.arbiter, 0⟩ 0x1080001 5 rfl rfl left.owned
    cases r with
    | ok v => exact absurd (succeeds.1 ⟨v, rfl⟩) (by decide)
    | error e =>
      obtain ⟨condition, rfl⟩ := fails e rfl
      exact ⟨condition, after, sent⟩

end Board

end InstrumentBus
