import InstrumentBus.Proofs.Spi.Controller
import InstrumentBus.Proofs.Waveform.Player
import InstrumentBus.Waveform.Bench

/-!
# A player between its two switches

A rig is a player with its port on the switch of its samples and its port on the switch of its converter,
whatever the masters of these switches are. In a step the controller of the converter moves first and the
player second (`tick`). There is one equation for each thing that the player can do then (`move_of_load`
and the others), in terms of what the player hears on its ports: zeros where it is not connected. All else
that happens to a rig comes from the other masters and from the processor that holds the settings
(`Event`), and keeps a rig sound.
-/

namespace InstrumentBus

theorem Clocked.ticks_add {σ : Type} [Clocked σ] (m n : Nat) (s : σ) :
    ticks (m + n) s = ticks n (ticks m s) := by
  induction m generalizing s with
  | zero => rw [Nat.zero_add, ticks]
  | succ m ih =>
    rw [Nat.succ_add, ticks, ticks]
    exact ih (tick s)

theorem Clocked.ticks_succ {σ : Type} [Clocked σ] (n : Nat) (s : σ) :
    ticks (n + 1) s = tick (ticks n s) :=
  ticks_add n 1 s

namespace Waveform

/-- A player with the RAM of its samples and the controller of its converter, each behind a switch. -/
structure Rig where
  player : Player
  /-- The port to the samples. -/
  ram : BusSwitch.View Ram
  /-- The port to the converter. -/
  dac : BusSwitch.View (Spi.Controller Ad5791.Chip)

/-- The player of a bench between the switches of the bench. -/
def Bench.rig (b : Bench) : Rig :=
  { player := b.player, ram := .mk playerMaster b.ram, dac := .mk playerMaster b.dac }

namespace Rig

variable {r : Rig} {cycles : Nat}

/-- The RAM of the samples. -/
def memory (r : Rig) : Ram :=
  r.ram.switch.device

/-- The controller of the converter. -/
def controller (r : Rig) : Spi.Controller Ad5791.Chip :=
  r.dac.switch.device

/-- The converter. -/
def chip (r : Rig) : Ad5791.Chip :=
  r.controller.device

/-- The player is connected to its samples. -/
def HasRam (r : Rig) : Prop :=
  r.ram.Connected

/-- The player is connected to its converter. -/
def HasDac (r : Rig) : Prop :=
  r.dac.Connected

instance (r : Rig) : Decidable r.HasRam :=
  inferInstanceAs (Decidable r.ram.Connected)

instance (r : Rig) : Decidable r.HasDac :=
  inferInstanceAs (Decidable r.dac.Connected)

/-! ## Steps -/

/-- The rig after the controller moved alone. -/
def clock (r : Rig) : Rig :=
  { r with dac := { r.dac with switch := r.dac.switch.tick } }

/-- The rig after the player moved alone. -/
def move (r : Rig) : Rig :=
  let (player, ram, dac) := r.player.tick r.ram r.dac
  { player, ram, dac }

/-- One step: the controller moves first, then the player. -/
def tick (r : Rig) : Rig :=
  r.clock.move

instance : Clocked Rig where
  tick := tick

/-- The frames that step `t` shifts. -/
def shifted (r : Rig) : Nat → List Word
  | 0 => []
  | n + 1 => (Clocked.ticks n r).controller.due

theorem master_move (r : Rig) : r.move.ram.master = r.ram.master ∧ r.move.dac.master = r.dac.master :=
  Player.tick_keeps (P := fun port : BusSwitch.View Ram => port.master = r.ram.master)
    (Q := fun port : BusSwitch.View (Spi.Controller Ad5791.Chip) => port.master = r.dac.master)
    (fun _ _ same => same) (fun _ _ same => same) r.player r.ram r.dac rfl rfl

theorem active_move (r : Rig) : r.move.ram.switch.active = r.ram.switch.active ∧
    r.move.dac.switch.active = r.dac.switch.active :=
  Player.tick_keeps (BusSwitch.View.keeps_active _) (BusSwitch.View.keeps_active _) r.player r.ram
    r.dac rfl rfl

/-- A step leaves the ports where they are. -/
theorem tick_ports (r : Rig) :
    Rig.mk r.tick.player (.mk r.ram.master r.tick.ram.switch) (.mk r.dac.master r.tick.dac.switch) =
      r.tick := by
  obtain ⟨ram, dac⟩ := master_move r.clock
  show Rig.mk r.tick.player (.mk r.clock.ram.master r.tick.ram.switch)
    (.mk r.clock.dac.master r.tick.dac.switch) = r.tick
  rw [← ram, ← dac]
  rfl

/-- A step of a bench is a step of the rig on it. -/
theorem rig_tick (b : Bench) : b.tick.rig = b.rig.tick :=
  tick_ports b.rig

/-! ## What the player hears and does -/

/-- A rig whose player and controller show in their registers where they are. -/
structure Sound (cycles : Nat) (r : Rig) : Prop where
  player : r.player.Sound
  controller : r.controller.Sound Ad5791.frameWidth cycles

/-- The sample that the player hears. -/
def heard (r : Rig) : Word :=
  if r.HasRam then r.memory.wordAt (r.player.registers.value Player.cursor * 4) else 0

/-- A connected player hears the word that its cursor counts, and zero past the end of the RAM. -/
theorem Sound.heard_eq (sound : r.Sound cycles) : r.heard =
    if r.HasRam then r.memory.words[(r.player.registers.value Player.cursor).toNat]?.getD 0 else 0 := by
  have small : (r.player.registers.value Player.cursor).toNat < 2 ^ 16 :=
    sound.player.fits.toNat_value_lt Player.cursor_field
  have address : (r.player.registers.value Player.cursor * 4).toNat / 4 =
      (r.player.registers.value Player.cursor).toNat := by
    have four : (4 : Word).toNat = 4 := rfl
    rw [BitVec.toNat_mul, four]
    omega
  rw [heard, Ram.wordAt, address]

/-- The rig after the player wrote to a register of the controller. -/
def put (r : Rig) (i : Nat) (w : Word) : Rig :=
  { r with dac := (Target.transact r.dac (.writeWord (Layout.offset i) w)).2 }

theorem controller_put (r : Rig) (i : Nat) (w : Word) :
    (r.put i w).controller = if r.HasDac then r.controller.put i w else r.controller := by
  unfold put controller
  split
  · next connected =>
    rw [BusSwitch.View.transact_of_connected connected]
    rfl
  · next apart => rw [BusSwitch.View.transact_of_not_connected apart]

theorem transact_readSample (r : Rig) :
    Target.transact r.ram (Player.readSample (r.player.registers.value Player.cursor)) =
      (.acked r.heard, r.ram) := by
  unfold heard
  split
  · next connected =>
    rw [BusSwitch.View.transact_of_connected connected]
    rfl
  · next apart =>
    rw [BusSwitch.View.transact_of_not_connected apart]
    rfl

/-- A question to the controller changes nothing, and is answered while the player is connected. -/
theorem Sound.transact_flag (sound : r.Sound cycles) {i : Nat} {f : Field}
    (found : (Spi.Controller.layout Ad5791.frameWidth).fields[i]? = some f) :
    Target.transact r.dac (.read (Layout.offset i)) =
      (.acked (if r.HasDac then r.controller.registers.value i else 0), r.dac) := by
  split
  · next connected =>
    have answer : Target.transact r.dac.switch.device (.read (Layout.offset i)) =
        (.acked (r.controller.registers.value i), r.dac.switch.device) :=
      sound.controller.transact_read (sound.controller.field found)
    rw [BusSwitch.View.transact_of_connected connected, answer]
  · next apart =>
    rw [BusSwitch.View.transact_of_not_connected apart]
    rfl

theorem Sound.transact_askReady (sound : r.Sound cycles) :
    ((Target.transact r.dac Player.askReady).1.data = 1 ↔
        r.HasDac ∧ r.controller.transfer = .idle) ∧
      (Target.transact r.dac Player.askReady).2 = r.dac := by
  have answer := sound.transact_flag Spi.Controller.readyToArm_field
  rw [sound.controller.ready] at answer
  rw [Player.askReady, answer]
  refine ⟨?_, rfl⟩
  show (if r.HasDac then if r.controller.transfer = .idle then (1 : Word) else 0 else 0) = 1 ↔ _
  split
  · next connected =>
    split
    · next idle => exact iff_of_true rfl ⟨connected, idle⟩
    · next busy => exact iff_of_false (by decide) fun both => busy both.2
  · next apart => exact iff_of_false (by decide) fun both => apart both.1

theorem Sound.transact_askFinished (sound : r.Sound cycles) :
    ((Target.transact r.dac Player.askFinished).1.data = 1 ↔
        r.HasDac ∧ r.controller.transfer = .done) ∧
      (Target.transact r.dac Player.askFinished).2 = r.dac := by
  have answer := sound.transact_flag Spi.Controller.finished_field
  rw [sound.controller.complete] at answer
  rw [Player.askFinished, answer]
  refine ⟨?_, rfl⟩
  show (if r.HasDac then if r.controller.transfer = .done then (1 : Word) else 0 else 0) = 1 ↔ _
  split
  · next connected =>
    split
    · next complete => exact iff_of_true rfl ⟨connected, complete⟩
    · next open_ => exact iff_of_false (by decide) fun both => open_ both.2
  · next apart => exact iff_of_false (by decide) fun both => apart both.1

/-- The player of a rig is running, and its settings let it. -/
def Plays (r : Rig) : Prop :=
  r.player.state = .running ∧ r.player.MayRun

/-- The next step copies a sample into the controller. -/
def Loads (r : Rig) : Prop :=
  r.Plays ∧ r.player.phase = .load ∧ r.HasDac

instance (r : Rig) : Decidable r.Plays :=
  inferInstanceAs (Decidable (r.player.state = .running ∧ r.player.MayRun))

instance (r : Rig) : Decidable r.Loads :=
  inferInstanceAs (Decidable (r.Plays ∧ r.player.phase = .load ∧ r.HasDac))

/-! ## The moves of the player -/

section Moves

theorem move_of_starts (ready : r.player.state = .ready) (may : r.player.MayRun) :
    r.move = { r with player := (r.player.drive Player.cursor 0).enter .running } := by
  rw [move, Player.tick_of_starts ready may]

theorem move_of_rests (idle : r.player.state ≠ .running)
    (may : r.player.state = .ready → ¬r.player.MayRun) :
    r.move = { r with player := r.player.settle } := by
  rw [move, Player.tick_of_rests idle may]

theorem move_of_halts (running : r.player.state = .running) (may : ¬r.player.MayRun) :
    r.move = { r.put Spi.Controller.arm 0 with player := r.player.halt } := by
  rw [move, Player.tick_of_halts running may]
  rfl

variable (running : r.player.state = .running) (may : r.player.MayRun)
include running may

theorem move_of_load (phase : r.player.phase = .load) :
    r.move = { r.put Spi.Controller.toSlave (Player.sampleFrame r.heard) with
      player := { r.player with phase := .transfer } } := by
  rw [move, Player.tick_of_plays running may, Player.playPhase, phase]
  dsimp only
  rw [transact_readSample]
  rfl

theorem Sound.move_of_transfer (sound : r.Sound cycles) (phase : r.player.phase = .transfer) :
    r.move =
      if r.HasDac ∧ r.controller.transfer = .idle then
        { r.put Spi.Controller.arm 1 with player := { r.player with phase := .awaitFrame } }
      else r := by
  obtain ⟨answer, same⟩ := sound.transact_askReady
  rw [move, Player.tick_of_plays running may, Player.playPhase, phase]
  dsimp only
  rw [same]
  by_cases opens : r.HasDac ∧ r.controller.transfer = .idle
  · rw [if_pos (answer.2 opens), if_pos opens]
    rfl
  · rw [if_neg fun ready => opens (answer.1 ready), if_neg opens]

theorem Sound.move_of_awaitFrame (sound : r.Sound cycles) (phase : r.player.phase = .awaitFrame) :
    r.move =
      if r.HasDac ∧ r.controller.transfer = .done then
        { r.put Spi.Controller.arm 0 with player := { r.player with phase := .wait 0 } }
      else r := by
  obtain ⟨answer, same⟩ := sound.transact_askFinished
  rw [move, Player.tick_of_plays running may, Player.playPhase, phase]
  dsimp only
  rw [same]
  by_cases complete : r.HasDac ∧ r.controller.transfer = .done
  · rw [if_pos (answer.2 complete), if_pos complete]
    rfl
  · rw [if_neg fun finished => complete (answer.1 finished), if_neg complete]

theorem move_of_wait {elapsed : Nat} (phase : r.player.phase = .wait elapsed) :
    r.move =
      if elapsed < (r.player.registers.value Player.spacing).toNat then
        { r with player := { r.player with phase := .wait (elapsed + 1) } }
      else { r with player := r.player.advance } := by
  rw [move, Player.tick_of_plays running may, Player.playPhase, phase]
  dsimp only
  split <;> rfl

end Moves

/-- What the player can do to the controller: put a frame there, raise `arm`, lower it, or nothing. -/
theorem Sound.controller_move (sound : r.Sound cycles) :
    (r.Loads ∧ r.move.controller =
      r.controller.put Spi.Controller.toSlave (Player.sampleFrame r.heard)) ∨
    (r.Plays ∧ r.player.phase = .transfer ∧ r.HasDac ∧ r.controller.transfer = .idle ∧
      r.move.controller = r.controller.put Spi.Controller.arm 1) ∨
    (¬r.Loads ∧ r.HasDac ∧ r.move.controller = r.controller.put Spi.Controller.arm 0) ∨
    (¬r.Loads ∧ r.move.controller = r.controller) := by
  by_cases running : r.player.state = .running
  swap
  · -- a player that does not run is away from its ports
    have away : ¬r.Loads := fun loads => running loads.1.1
    by_cases starts : r.player.state = .ready ∧ r.player.MayRun
    · rw [move_of_starts starts.1 starts.2]
      exact .inr (.inr (.inr ⟨away, rfl⟩))
    · rw [move_of_rests running fun ready may => starts ⟨ready, may⟩]
      exact .inr (.inr (.inr ⟨away, rfl⟩))
  by_cases may : r.player.MayRun
  swap
  · have away : ¬r.Loads := fun loads => may loads.1.2
    have left : r.move.controller = (r.put Spi.Controller.arm 0).controller := by
      rw [move_of_halts running may]
      rfl
    rw [left, controller_put]
    split
    · next connected => exact .inr (.inr (.inl ⟨away, connected, rfl⟩))
    · exact .inr (.inr (.inr ⟨away, rfl⟩))
  have elsewhere {phase : Phase} (here : r.player.phase = phase) (other : phase ≠ .load) : ¬r.Loads :=
    fun loads => other (here.symm.trans loads.2.1)
  cases phase : r.player.phase with
  | load =>
    have left : r.move.controller =
        (r.put Spi.Controller.toSlave (Player.sampleFrame r.heard)).controller := by
      rw [move_of_load running may phase]
      rfl
    rw [left, controller_put]
    split
    · next connected => exact .inl ⟨⟨⟨running, may⟩, phase, connected⟩, rfl⟩
    · next apart => exact .inr (.inr (.inr ⟨fun loads => apart loads.2.2, rfl⟩))
  | transfer =>
    rw [sound.move_of_transfer running may phase]
    split
    · next opens =>
      refine .inr (.inl ⟨⟨running, may⟩, rfl, opens.1, opens.2, ?_⟩)
      exact (controller_put r _ _).trans (if_pos opens.1)
    · exact .inr (.inr (.inr ⟨elsewhere phase Phase.noConfusion, rfl⟩))
  | awaitFrame =>
    rw [sound.move_of_awaitFrame running may phase]
    split
    · next complete =>
      refine .inr (.inr (.inl ⟨elsewhere phase Phase.noConfusion, complete.1, ?_⟩))
      exact (controller_put r _ _).trans (if_pos complete.1)
    · exact .inr (.inr (.inr ⟨elsewhere phase Phase.noConfusion, rfl⟩))
  | wait elapsed =>
    rw [move_of_wait running may phase]
    split
    · exact .inr (.inr (.inr ⟨elsewhere phase Phase.noConfusion, rfl⟩))
    · exact .inr (.inr (.inr ⟨elsewhere phase Phase.noConfusion, rfl⟩))

/-- A player that is not connected to its converter leaves it alone. -/
theorem controller_tick_of_apart (apart : ¬r.HasDac) : r.tick.controller = r.controller.tick := by
  have ram : Target.Keeps fun _ : BusSwitch.View Ram => True := fun _ _ _ => trivial
  have dac := BusSwitch.View.keeps_of_ne_active r.clock.dac apart
  exact congrArg (fun port : BusSwitch.View (Spi.Controller Ad5791.Chip) => port.switch.device)
    (Player.tick_keeps ram dac r.player r.ram r.clock.dac trivial rfl).2

/-- The player only reads its samples. -/
theorem ram_move (r : Rig) : r.move.ram = r.ram := by
  rcases Player.tick_cases r.player r.ram r.dac with ⟨-, -, ticked⟩ | ⟨-, -, ticked⟩ |
    ⟨-, -, ticked⟩ | ⟨-, -, ticked⟩
  · rw [move, ticked]
  · rw [move, ticked, Player.playPhase]
    cases r.player.phase with
    | load => exact congrArg Prod.snd (transact_readSample r)
    | transfer => dsimp only; split <;> rfl
    | awaitFrame => dsimp only; split <;> rfl
    | wait elapsed => dsimp only; split <;> rfl
  · rw [move, ticked]
  · rw [move, ticked]

theorem ram_tick (r : Rig) : r.tick.ram = r.ram :=
  ram_move r.clock

theorem hasRam_tick (r : Rig) : r.tick.HasRam ↔ r.HasRam := by
  rw [HasRam, ram_tick]
  exact Iff.rfl

theorem hasDac_tick (r : Rig) : r.tick.HasDac ↔ r.HasDac := by
  have master : r.tick.dac.master = r.dac.master := (master_move r.clock).2
  have active : r.tick.dac.switch.active = r.dac.switch.active := (active_move r.clock).2
  show r.tick.dac.master = r.tick.dac.switch.active ↔ r.dac.master = r.dac.switch.active
  rw [master, active]

theorem memory_tick (r : Rig) : r.tick.memory = r.memory :=
  congrArg (fun port : BusSwitch.View Ram => port.switch.device) (ram_tick r)

/-- The player reaches the converter through the controller alone. -/
theorem chip_tick (r : Rig) : r.tick.chip = SerialDevice.feed r.chip r.controller.due := by
  have ram : Target.Keeps fun _ : BusSwitch.View Ram => True := fun _ _ _ => trivial
  have dac : Target.Keeps fun port : BusSwitch.View (Spi.Controller Ad5791.Chip) =>
      port.switch.device.device = r.clock.chip :=
    BusSwitch.View.keeps_device
      (P := fun c : Spi.Controller Ad5791.Chip => c.device = r.clock.chip) fun _ _ same => same
  have moved : r.tick.chip = r.clock.chip :=
    (Player.tick_keeps ram dac r.player r.ram r.clock.dac trivial rfl).2
  rw [moved]
  exact Spi.Controller.device_tick r.controller

/-! ## What happens to a rig -/

/-- What can happen to a rig: a step, a transaction on the registers of the player, a transaction of a
master on the RAM or on the controller, or a transaction on one of the two selections. -/
inductive Event where
  | tick
  | configure (req : Request)
  | ram (master : Nat) (req : Request)
  | dac (master : Nat) (req : Request)
  | selectRam (req : Request)
  | selectDac (req : Request)
deriving DecidableEq, Repr

/-- The rig after an event. -/
def step (r : Rig) : Event → Rig
  | .tick => r.tick
  | .configure req => { r with player := (r.player.transact req).2 }
  | .ram master req => { r with ram := { r.ram with switch := (r.ram.switch.transact master req).2 } }
  | .dac master req => { r with dac := { r.dac with switch := (r.dac.switch.transact master req).2 } }
  | .selectRam req => { r with ram := { r.ram with switch := (r.ram.switch.transactControl req).2 } }
  | .selectDac req => { r with dac := { r.dac with switch := (r.dac.switch.transactControl req).2 } }

/-- The rig after several events. -/
def run (r : Rig) (events : List Event) : Rig :=
  events.foldl step r

/-- The rig after an event, or as it is. -/
def stepIf (r : Rig) : Option Event → Rig
  | none => r
  | some e => r.step e

/-- No event changes the size of the RAM. -/
theorem size_memory_step (r : Rig) (e : Event) :
    (r.step e).memory.words.size = r.memory.words.size := by
  cases e with
  | tick => exact congrArg (fun m : Ram => m.words.size) (memory_tick r)
  | ram master req =>
    have keeps : Target.Keeps fun m : Ram => m.words.size = r.memory.words.size := by
      intro m req same
      cases req with
      | read addr => exact same
      | write addr data lanes => exact Array.size_setIfInBounds.trans same
    exact BusSwitch.View.keeps_device keeps (.mk master r.ram.switch) req rfl
  | selectRam req =>
    exact congrArg (fun m : Ram => m.words.size) (BusSwitch.device_transactControl r.ram.switch req)
  | _ => rfl

theorem size_memory_stepIf (r : Rig) (e : Option Event) :
    (r.stepIf e).memory.words.size = r.memory.words.size := by
  cases e with
  | none => rfl
  | some e => exact size_memory_step r e

/-- The rigs that some events make of a rig at reset, whatever its masters, its samples and its converter
are, with sessions of `cycles` ticks. -/
inductive Reachable (cycles : Nat) : Rig → Prop
  | reset (ramMaster dacMaster : Nat) (ramMasters dacMasters : Array String) (memory : Ram)
      (chip : Ad5791.Chip) :
    Reachable cycles
      { player := .reset
        ram := .mk ramMaster (.reset ramMasters memory)
        dac := .mk dacMaster (.reset dacMasters (.reset chip Ad5791.frameWidth cycles)) }
  | step {r : Rig} (e : Event) : Reachable cycles r → Reachable cycles (r.step e)

theorem Reachable.run (reach : Reachable cycles r) (events : List Event) :
    Reachable cycles (r.run events) := by
  induction events generalizing r with
  | nil => exact reach
  | cons e rest ih => exact ih (.step e reach)

theorem keeps_controller (cycles : Nat) :
    Target.Keeps fun port : BusSwitch.View (Spi.Controller Ad5791.Chip) =>
      port.switch.device.Sound Ad5791.frameWidth cycles :=
  BusSwitch.View.keeps_device fun _ req sound => sound.transact req

theorem Sound.clock (sound : r.Sound cycles) : r.clock.Sound cycles :=
  ⟨sound.player, sound.controller.tick⟩

theorem Sound.move (sound : r.Sound cycles) : r.move.Sound cycles := by
  have ram : Target.Keeps fun _ : BusSwitch.View Ram => True := fun _ _ _ => trivial
  exact ⟨sound.player.tick r.ram r.dac,
    (Player.tick_keeps ram (keeps_controller cycles) r.player r.ram r.dac trivial sound.controller).2⟩

theorem Sound.tick (sound : r.Sound cycles) : r.tick.Sound cycles :=
  sound.clock.move

theorem Sound.step (sound : r.Sound cycles) (e : Event) : (r.step e).Sound cycles := by
  cases e with
  | tick => exact sound.tick
  | configure req => exact ⟨sound.player.transact req, sound.controller⟩
  | ram master req => exact ⟨sound.player, sound.controller⟩
  | dac master req =>
    exact ⟨sound.player, keeps_controller cycles (.mk master r.dac.switch) req sound.controller⟩
  | selectRam req => exact ⟨sound.player, sound.controller⟩
  | selectDac req =>
    refine ⟨sound.player, ?_⟩
    have same : (r.step (.selectDac req)).controller = r.controller :=
      BusSwitch.device_transactControl r.dac.switch req
    rw [same]
    exact sound.controller

theorem Sound.stepIf (sound : r.Sound cycles) (e : Option Event) : (r.stepIf e).Sound cycles := by
  cases e with
  | none => exact sound
  | some e => exact sound.step e

theorem Reachable.sound (reach : Reachable cycles r) : r.Sound cycles := by
  induction reach with
  | reset => exact ⟨Player.sound_reset, Spi.Controller.sound_reset _ (by decide) (by decide)⟩
  | step e _ ih => exact ih.step e

/-- On both switches of a rig one of the masters is connected. -/
structure Seated (ramMasters dacMasters : Nat) (r : Rig) : Prop where
  ram : r.ram.switch.Seated ramMasters
  dac : r.dac.switch.Seated dacMasters

theorem Seated.tick {ramMasters dacMasters : Nat} (seated : r.Seated ramMasters dacMasters) :
    r.tick.Seated ramMasters dacMasters := by
  obtain ⟨ram, dac⟩ := Player.tick_keeps (BusSwitch.View.keeps_seated ramMasters)
    (BusSwitch.View.keeps_seated dacMasters) r.player r.ram r.clock.dac seated.ram seated.dac
  exact ⟨ram, dac⟩

theorem Seated.step {ramMasters dacMasters : Nat} (seated : r.Seated ramMasters dacMasters)
    (e : Event) : (r.step e).Seated ramMasters dacMasters := by
  cases e with
  | tick => exact seated.tick
  | configure req => exact ⟨seated.ram, seated.dac⟩
  | ram master req => exact ⟨seated.ram.transact master req, seated.dac⟩
  | dac master req => exact ⟨seated.ram, seated.dac.transact master req⟩
  | selectRam req => exact ⟨seated.ram.transactControl req, seated.dac⟩
  | selectDac req => exact ⟨seated.ram, seated.dac.transactControl req⟩

theorem Seated.stepIf {ramMasters dacMasters : Nat} (seated : r.Seated ramMasters dacMasters)
    (e : Option Event) : (r.stepIf e).Seated ramMasters dacMasters := by
  cases e with
  | none => exact seated
  | some e => exact seated.step e

end Rig

end Waveform

end InstrumentBus
