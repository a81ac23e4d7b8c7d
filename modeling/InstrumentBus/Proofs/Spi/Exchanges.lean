import InstrumentBus.Proofs.Spi.History
import InstrumentBus.Spi.DelayLine

/-!
# One exchange for each session

The frames that a controller shifts are recorded at its device (`SerialDevice.Logged`). Along every history an
exchange is made only by the step that raises `finished`, one for each such step, and a fixed number of steps after
the step that took `ready_to_arm` down; the answer stays in `from_slave` until the next one, and before that a step
finds `arm` low (`Orderly`, `sessions_exchange_once`).
-/

namespace InstrumentBus

/-! ## Devices under observation -/

namespace SerialDevice

/-- A frame and what a device drove meanwhile. -/
structure Swap where
  frame : Word
  answer : Word
deriving DecidableEq, Repr

/-- A device whose exchanges are recorded. -/
structure Logged (δ : Type) where
  device : δ
  /-- The exchanges so far, in the order in which they were made. -/
  log : List Swap
deriving DecidableEq, Repr

namespace Logged

variable {δ : Type}

/-- A device whose exchanges are recorded from now on. -/
def start (device : δ) : Logged δ :=
  { device, log := [] }

instance [SerialDevice δ] : SerialDevice (Logged δ) where
  exchange d frame :=
    let (answer, device) := exchange d.device frame
    (answer, { device, log := d.log ++ [⟨frame, answer⟩] })

/-- What the device answered to the last frame; zero before the first. -/
def lastAnswer (d : Logged δ) : Word :=
  (d.log.getLast?.map Swap.answer).getD 0

variable [SerialDevice δ]

theorem log_exchange (d : Logged δ) (frame : Word) :
    (exchange d frame).2.log = d.log ++ [⟨frame, (exchange d frame).1⟩] :=
  rfl

theorem lastAnswer_exchange (d : Logged δ) (frame : Word) :
    (exchange d frame).2.lastAnswer = (exchange d frame).1 := by
  rw [lastAnswer, log_exchange, List.getLast?_concat]
  rfl

end Logged

end SerialDevice

namespace Spi.Controller

open Input (after)
open SerialDevice (Logged Swap)

variable {δ : Type} [SerialDevice δ] {frameWidth cycles : Nat}

/-- The controller in front of the device itself. -/
def unlogged (c : Controller (Logged δ)) : Controller δ :=
  { c with device := c.device.device }

theorem unlogged_tick (c : Controller (Logged δ)) : c.tick.unlogged = c.unlogged.tick := by
  obtain ⟨frameWidth, cycles, registers, transfer, device⟩ := c
  cases transfer with
  | idle => exact apply_ite unlogged (registers.value arm == 1) _ _
  | busy left => cases left <;> rfl
  | done => exact apply_ite unlogged (registers.value arm == 1) _ _

/-- A controller is the same with a record of the exchanges and without. -/
theorem unlogged_after (c : Controller (Logged δ)) (inputs : List (Input Unit)) :
    (after c inputs).unlogged = after c.unlogged inputs := by
  refine Input.map_after (fun now i => ?_) c inputs
  cases i with
  | bus req => rfl
  | move _ => exact unlogged_tick now

/-! ## One step -/

section Step

variable {c : Controller (Logged δ)}

/-- A step that completes a frame makes one exchange, of this frame. -/
theorem Sound.device_tick_of_completes (sound : c.Sound frameWidth cycles) (completes : c.Completes) :
    c.tick.device = (SerialDevice.exchange c.device c.frame).2 := by
  rw [device_tick, sound.due_of_completes completes]
  rfl

/-- No other step makes an exchange. -/
theorem Sound.device_tick_of_not_completes (sound : c.Sound frameWidth cycles) (incomplete : ¬c.Completes) :
    c.tick.device = c.device := by
  rw [device_tick, sound.due_of_not_completes incomplete]
  rfl

/-- The controller shows the last answer of the device, cut to its frames. -/
def Shows (frameWidth : Nat) (c : Controller (Logged δ)) : Prop :=
  c.registers.value fromSlave = c.device.lastAnswer &&& widthMask frameWidth

omit [SerialDevice δ] in
theorem shows_reset (device : δ) : (reset (Logged.start device) frameWidth cycles).Shows frameWidth := by
  have answer : (reset (Logged.start device) frameWidth cycles).device.lastAnswer = 0#32 := rfl
  rw [Shows, answer, BitVec.zero_and]
  exact (RegisterFile.value_drive_of_ne _ (by decide) _).trans (RegisterFile.value_zero _ _)

omit [SerialDevice δ] in
theorem Shows.transact (shows : c.Shows frameWidth) (req : Request) : (c.transact req).2.Shows frameWidth :=
  (c.registers.value_transactFrom_of_not_writableBy fromSlave_field rfl req).trans shows

theorem Sound.shows_tick (sound : c.Sound frameWidth cycles) (before : c.Shows frameWidth) :
    c.tick.Shows frameWidth := by
  by_cases completes : c.Completes
  · have last := sound.completes_iff.1 completes
    rw [Shows, sound.device_tick_of_completes completes, Logged.lastAnswer_exchange,
      value_fromSlave_tick last, sound.width]
  · have other : c.transfer ≠ .busy 0 := fun last => completes (sound.completes_iff.2 last)
    rw [Shows, sound.device_tick_of_not_completes completes, value_tick c (by decide) (.inr other)]
    exact before

/-- Whatever happens to a controller, it shows the last answer. -/
theorem Sound.shows_after (sound : c.Sound frameWidth cycles) (before : c.Shows frameWidth)
    (inputs : List (Input Unit)) : (after c inputs).Shows frameWidth :=
  (Input.after_keeps (P := fun now : Controller (Logged δ) => now.Sound frameWidth cycles ∧ now.Shows frameWidth)
    (fun _ req now => ⟨now.1.transact req, now.2.transact req⟩)
    (fun _ _ now => ⟨now.1.tick, now.1.shows_tick now.2⟩) ⟨sound, before⟩ inputs).2

end Step

/-! ## Since a session was opened -/

section Opened

variable {c : Controller δ} {inputs early mid : List (Input Unit)}

/-- The session that is open after a history was opened by the step after `early`, `mid` is what has happened
since, and all the while the controller has not been ready. -/
structure Opened (c : Controller δ) (inputs early mid : List (Input Unit)) : Prop where
  split : inputs = early ++ .tick :: mid
  opens : (after c early).Opens
  shut : ∀ part, part <+: mid → (after c (early ++ .tick :: part)).registers.value readyToArm = 0

theorem Opened.here (opens : (after c inputs).Opens) : Opened c (inputs ++ [.tick]) inputs [] := by
  refine ⟨rfl, opens, fun part begins => ?_⟩
  rw [List.prefix_nil.1 begins, Input.after_concat]
  exact opens.2

/-- A session stays open while the controller is not ready. -/
theorem Opened.concat (opened : Opened c inputs early mid) {i : Input Unit}
    (shut : (after c (inputs ++ [i])).registers.value readyToArm = 0) :
    Opened c (inputs ++ [i]) early (mid ++ [i]) := by
  have split : inputs ++ [i] = early ++ .tick :: (mid ++ [i]) := by
    rw [opened.split, List.append_assoc, List.cons_append]
  refine ⟨split, opened.opens, fun part begins => ?_⟩
  rcases List.prefix_concat_iff.1 begins with whole | before
  · rwa [whole, ← split]
  · exact opened.shut part before

/-- While a frame is to be shifted the session that it belongs to is open, and the steps since and those to come
make up the delay. -/
theorem Sound.opened_of_busy (sound : c.Sound frameWidth cycles) (idle : c.transfer = .idle) {left : Nat}
    (busy : (after c inputs).transfer = .busy left) :
    ∃ early mid, Opened c inputs early mid ∧ mid.count .tick + left = cycles := by
  induction inputs using List.reverseRecOn generalizing left with
  | nil =>
    cases idle.symm.trans busy
  | append_singleton inputs i ih =>
    have before := sound.along inputs
    have shut : (after c (inputs ++ [i])).registers.value readyToArm = 0 := by
      rw [(sound.along (inputs ++ [i])).not_ready_iff, busy]
      rintro ⟨⟩
    rw [Input.after_concat] at busy
    cases i with
    | bus req =>
      obtain ⟨early, mid, opened, delay⟩ := ih busy
      refine ⟨early, mid ++ [.bus req], opened.concat shut, ?_⟩
      rw [List.count_append, List.count_singleton, if_neg (by rintro ⟨⟩)]
      exact delay
    | move _ =>
      rcases Transfer.next_eq_busy_iff.1 ((transfer_tick _).symm.trans busy) with
        ⟨transfer, armed, rfl⟩ | transfer
      · exact ⟨inputs, [], .here (before.opens_iff.2 ⟨transfer, armed⟩), by simpa using before.delay⟩
      · obtain ⟨early, mid, opened, delay⟩ := ih transfer
        refine ⟨early, mid ++ [.tick], opened.concat shut, ?_⟩
        rw [List.count_append, List.count_singleton_self]
        omega

theorem after_since_concat (c : Controller δ) (early mid : List (Input Unit)) (i j : Input Unit) :
    after c (early ++ i :: (mid ++ [j])) = Input.step (after c (early ++ i :: mid)) j := by
  rw [← Input.after_concat, List.append_assoc, List.cons_append]

/-- Whatever happens after a session was opened, its frame is to be shifted until the steps make up the delay. -/
theorem Sound.busy_of_opens (sound : c.Sound frameWidth cycles) (opens : (after c early).Opens)
    (within : mid.count .tick ≤ cycles) :
    (after c (early ++ .tick :: mid)).transfer = .busy (cycles - mid.count .tick) := by
  have before := sound.along early
  induction mid using List.reverseRecOn with
  | nil =>
    obtain ⟨idle, armed⟩ := before.opens_iff.1 opens
    rw [Input.after_concat]
    exact (transfer_tick _).trans (by rw [idle, armed, before.delay]; rfl)
  | append_singleton mid i ih =>
    rw [List.count_append] at within
    have busy := ih (by omega)
    rw [after_since_concat, List.count_append]
    cases i with
    | bus req => exact busy
    | move _ =>
      rw [List.count_singleton_self] at within ⊢
      refine (transfer_tick _).trans (Transfer.next_eq_busy_iff.2 (.inr ?_))
      rw [busy]
      congr 1
      omega

/-- A session whose frame is complete lasts until a step finds `arm` low. -/
theorem done_or_released (last : (after c early).transfer = .busy 0) (mid : List (Input Unit)) :
    (after c (early ++ .tick :: mid)).transfer = .done ∨
      ∃ p q, mid = p ++ .tick :: q ∧ (after c (early ++ .tick :: p)).armed = false := by
  induction mid using List.reverseRecOn with
  | nil =>
    rw [Input.after_concat]
    exact .inl ((transfer_tick _).trans (Transfer.next_eq_done_iff.2 (.inl last)))
  | append_singleton mid i ih =>
    rcases ih with done | ⟨p, q, split, low⟩
    · rw [after_since_concat]
      cases i with
      | bus req => exact .inl done
      | move _ =>
        cases armed : (after c (early ++ .tick :: mid)).armed with
        | false => exact .inr ⟨mid, [], rfl, armed⟩
        | true =>
          exact .inl ((transfer_tick _).trans (Transfer.next_eq_done_iff.2 (.inr ⟨done, armed⟩)))
    · refine .inr ⟨p, q ++ [i], ?_, low⟩
      rw [split, List.append_assoc, List.cons_append]

/-- Between two frames a step finds `arm` low. -/
theorem Sound.released_between (sound : c.Sound frameWidth cycles) (first : (after c early).Completes)
    (second : (after c (early ++ .tick :: mid)).Completes) :
    ∃ p q, mid = p ++ .tick :: q ∧ (after c (early ++ .tick :: p)).armed = false := by
  have last := (sound.along early).completes_iff.1 first
  have again := (sound.along (early ++ .tick :: mid)).completes_iff.1 second
  refine (done_or_released last mid).resolve_left fun done => ?_
  cases done.symm.trans again

end Opened

/-! ## Along every history -/

/-- What an exchange in the next step puts on record. -/
def swap (c : Controller (Logged δ)) : Swap :=
  ⟨c.frame, (SerialDevice.exchange c.device c.frame).1⟩

/-- What a controller does for its sessions up to the end of a history, and in what comes next. -/
structure Orderly (frameWidth cycles : Nat) (c : Controller (Logged δ)) (inputs : List (Input Unit)) : Prop where
  /-- The controller is ready while the steps have left no session open. -/
  ready : (after c inputs).registers.value readyToArm = 1 ↔
    Transfer.along cycles (c.armsSeen inputs) = .idle
  /-- The controller is finished while the steps have left the frame of a session complete. -/
  complete : (after c inputs).registers.value finished = 1 ↔
    Transfer.along cycles (c.armsSeen inputs) = .done
  exclusive : ¬((after c inputs).registers.value readyToArm = 1 ∧ (after c inputs).registers.value finished = 1)
  /-- The last answer is on show. -/
  shown : (after c inputs).Shows frameWidth
  /-- No transaction makes an exchange. -/
  untouched : ∀ req, ((after c inputs).transact req).2.device = (after c inputs).device
  /-- A step that raises `finished` makes one exchange. -/
  exchanged : (after c inputs).Completes →
    (after c inputs).tick.device.log = (after c inputs).device.log ++ [(after c inputs).swap]
  /-- No other step makes any. -/
  quiet : ¬(after c inputs).Completes → (after c inputs).tick.device = (after c inputs).device
  /-- The step that raises `finished` comes that many steps after the one that took `ready_to_arm` down. -/
  waited : (after c inputs).Completes → ∃ early mid, Opened c inputs early mid ∧ mid.count .tick = cycles
  /-- A step that takes `ready_to_arm` down is followed by one that raises `finished`. -/
  punctual : ∀ early mid, inputs = early ++ .tick :: mid → (after c early).Opens → mid.count .tick = cycles →
    (after c inputs).Completes
  /-- A step finds `arm` low between two that raise `finished`. -/
  released : ∀ early mid, inputs = early ++ .tick :: mid → (after c early).Completes →
    (after c inputs).Completes →
      ∃ p q, mid = p ++ .tick :: q ∧ (after c (early ++ .tick :: p)).armed = false

section Histories

variable {c : Controller (Logged δ)}

theorem Sound.orderly (sound : c.Sound frameWidth cycles) (idle : c.transfer = .idle)
    (shows : c.Shows frameWidth) (inputs : List (Input Unit)) : c.Orderly frameWidth cycles inputs := by
  have now := sound.along inputs
  have along : (after c inputs).transfer = Transfer.along cycles (c.armsSeen inputs) := by
    rw [transfer_after, idle, sound.delay]
    rfl
  refine {
    ready := along ▸ now.ready_iff
    complete := along ▸ now.finished_iff
    exclusive := now.flags_exclusive
    shown := sound.shows_after shows inputs
    untouched := fun _ => rfl
    exchanged := fun completes => by rw [now.device_tick_of_completes completes]; rfl
    quiet := now.device_tick_of_not_completes
    waited := fun completes => sound.opened_of_busy idle (now.completes_iff.1 completes)
    punctual := ?_
    released := ?_ }
  · rintro early mid rfl opens delay
    refine now.completes_iff.2 ?_
    rw [sound.busy_of_opens opens (Nat.le_of_eq delay), delay, Nat.sub_self]
  · rintro early mid rfl first second
    exact sound.released_between first second

end Histories

/-- A controller that can be built makes one exchange for each session along every history, a fixed number of steps
after the session was opened, and the record of the exchanges does not change what it does. -/
theorem sessions_exchange_once (wide : 0 < frameWidth) (narrow : frameWidth ≤ 32) (cycles : Nat) (device : δ)
    (inputs : List (Input Unit)) :
    build device frameWidth cycles = .ok (reset device frameWidth cycles) ∧
    (after (reset (Logged.start device) frameWidth cycles) inputs).unlogged =
      after (reset device frameWidth cycles) inputs ∧
    (reset (Logged.start device) frameWidth cycles).Orderly frameWidth cycles inputs := by
  refine ⟨if_neg (by omega), unlogged_after _ inputs, ?_⟩
  exact (sound_reset _ wide narrow).orderly rfl (shows_reset device) inputs

/-- Two sessions of a delay line. In the first `arm` is lowered and `to_slave` overwritten while the frame waits,
and `finished` is written from the bus. -/
def twoSessions : List (Input Unit) :=
  [.bus (.writeWord (Layout.offset toSlave) 5), .bus (.writeWord (Layout.offset arm) 1), .tick,
    .bus (.writeWord (Layout.offset arm) 0), .bus (.writeWord (Layout.offset finished) 1), .tick,
    .bus (.writeWord (Layout.offset toSlave) 0xF000007), .tick, .tick, .tick,
    .bus (.writeWord (Layout.offset arm) 1), .tick, .tick, .tick, .tick]

theorem sessions_exchange_once_delayLine :
    (0 < 24 ∧ 24 ≤ 32) ∧
    (after (reset (Logged.start DelayLine.powerOn) 24 2) twoSessions).device.log = [⟨7, 0⟩, ⟨7, 7⟩] ∧
    build DelayLine.powerOn 24 2 = .ok (reset DelayLine.powerOn 24 2) ∧
    (after (reset (Logged.start DelayLine.powerOn) 24 2) twoSessions).unlogged =
      after (reset DelayLine.powerOn 24 2) twoSessions ∧
    (reset (Logged.start DelayLine.powerOn) 24 2).Orderly 24 2 twoSessions :=
  ⟨by decide, by decide, sessions_exchange_once (by decide) (by decide) 2 DelayLine.powerOn twoSessions⟩

end Spi.Controller

end InstrumentBus
