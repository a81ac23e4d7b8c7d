import InstrumentBus.Proofs.Waveform.Finishing

/-!
# A converter that is handed to its player

Another master leaves `arm` low or high when it hands the converter to the player. A player that works
raises `arm` and lowers it again, and lowers it when it is halted; a player at rest leaves it as it is. So
what the other master left decides how `arm` will be once the player was halted (`Rig.Leaves`). Nothing changes
that until the player starts: no step, no setting that does not start or force the player, and no use of the RAM
of its samples.
-/

namespace InstrumentBus

namespace Waveform

namespace Player

variable {p : Player}

/-- The settings do not force the player to stop. -/
def Calm (p : Player) : Prop :=
  p.registers.value forceStop ≠ 1

/-- The player does not run, and will not start by itself. -/
def AtRest (p : Player) : Prop :=
  p.state ≠ .running ∧ (p.state = .ready → ¬p.MayRun)

/-- The player after a write to the register in place `i`. -/
def put (p : Player) (i : Nat) (w : Word) : Player :=
  (p.transact (.writeWord (Layout.offset i) w)).2

theorem Sound.value_put (sound : p.Sound) {i : Nat} {f : Field} (found : layout.fields[i]? = some f)
    (writable : f.access = .readWrite) (w : Word) (j : Nat) :
    (p.put i w).registers.value j =
      if j = i then w &&& widthMask f.width else p.registers.value j := by
  have granted : f.access.writableBy .supervisor = true := by
    rw [writable]
    rfl
  exact sound.fits.value_transactFrom_writeWord sound_layout found granted w j

/-- A player at rest settles, and is at rest then. -/
theorem AtRest.settle (rests : p.AtRest) : p.settle.AtRest := by
  obtain ⟨idle, may⟩ := rests
  unfold Player.settle
  split
  · next leaves =>
    refine ⟨State.noConfusion, fun _ entered => ?_⟩
    have run : (p.enter .ready).registers.value run = p.registers.value run :=
      value_enter p .ready (by decide) (by decide)
    have forceStop : (p.enter .ready).registers.value forceStop = p.registers.value forceStop :=
      value_enter p .ready (by decide) (by decide)
    obtain ⟨set, calm⟩ := entered
    rw [run] at set
    rw [forceStop] at calm
    rcases leaves with forced | ⟨-, cleared⟩
    · exact calm forced
    · exact cleared set
  · exact ⟨idle, may⟩

end Player

namespace Rig

variable {r : Rig} {s : Score} {cycles : Nat}

/-- A step reaches no setting of the player. -/
theorem setting_tick (r : Rig) {j : Nat} (setting : j < Player.finishedOrReady) :
    r.tick.player.registers.value j = r.player.registers.value j :=
  Player.value_tick r.player r.ram r.clock.dac setting

theorem calm_tick (r : Rig) : r.tick.player.Calm ↔ r.player.Calm := by
  rw [Player.Calm, setting_tick r (by decide)]
  exact Iff.rfl

/-- A player that is connected lowers `arm`. -/
theorem Sound.armed_lower (sound : r.Sound cycles) (dac : r.HasDac) :
    (r.put Spi.Controller.arm 0).controller.armed = false := by
  rw [controller_put, if_pos dac, sound.controller.armed_put_arm]
  decide

theorem tick_of_atRest (rests : r.player.AtRest) :
    r.tick = { r.clock with player := r.player.settle } :=
  move_of_rests (r := r.clock) rests.1 rests.2

/-! ## From the hand-over on -/

/-- What `arm` will be once the player was halted: not known, low because only the player can have raised
it, or high because it is high and the player leaves it alone. -/
def Leaves (arm : Option Bool) (r : Rig) : Prop :=
  match arm with
  | none => True
  | some false =>
    r.controller.armed = true → r.player.state = .running ∧ r.player.phase = .awaitFrame
  | some true => r.controller.armed = true ∧ r.player.AtRest

/-- The player has the converter, and nothing forces it to stop. -/
structure Handed (arm : Option Bool) (r : Rig) : Prop where
  dac : r.HasDac
  calm : r.player.Calm
  leaves : r.Leaves arm

variable {arm : Option Bool}

/-- Only the phase in which the player waits for its frame goes by with `arm` high. -/
theorem Sound.leaves_false_tick (sound : r.Sound cycles) (dac : r.HasDac)
    (leaves : r.Leaves (some false)) : r.tick.Leaves (some false) := by
  intro raised
  have clocked : r.clock.controller.armed = r.controller.armed := Spi.Controller.armed_tick _
  by_cases high : r.controller.armed = true
  · -- the player waits for its frame, and goes on or lowers `arm`
    obtain ⟨running, phase⟩ := leaves high
    by_cases may : r.player.MayRun
    · have ticked : r.tick = _ := sound.clock.move_of_awaitFrame (r := r.clock) running may phase
      split at ticked
      · rw [ticked] at raised
        cases (sound.clock.armed_lower dac).symm.trans raised
      · rw [ticked]
        exact ⟨running, phase⟩
    · have ticked : r.tick = _ := move_of_halts (r := r.clock) running may
      rw [ticked] at raised
      cases (sound.clock.armed_lower dac).symm.trans raised
  · have low : r.clock.controller.armed = false := clocked.trans (Bool.eq_false_iff.2 high)
    rcases sound.clock.controller_move with ⟨-, left⟩ | ⟨⟨running, may⟩, phase, connected, idle, -⟩ |
      ⟨-, -, left⟩ | ⟨-, left⟩
    · have same : r.tick.controller.armed = false := by
        rw [Rig.tick, left, sound.clock.controller.armed_put_toSlave, low]
      cases same.symm.trans raised
    · have ticked : r.tick = _ := sound.clock.move_of_transfer (r := r.clock) running may phase
      rw [if_pos ⟨connected, idle⟩] at ticked
      rw [ticked]
      exact ⟨running, rfl⟩
    · have same : r.tick.controller.armed = false := by
        rw [Rig.tick, left, sound.clock.controller.armed_put_arm]
        decide
      cases same.symm.trans raised
    · have same : r.tick.controller.armed = false := by
        rw [Rig.tick, left, low]
      cases same.symm.trans raised

theorem leaves_true_tick (leaves : r.Leaves (some true)) : r.tick.Leaves (some true) := by
  obtain ⟨high, rests⟩ := leaves
  rw [tick_of_atRest rests]
  exact ⟨(Spi.Controller.armed_tick _).trans high, rests.settle⟩

theorem Handed.tick (sound : r.Sound cycles) (handed : Handed arm r) : Handed arm r.tick := by
  obtain ⟨dac, calm, leaves⟩ := handed
  refine ⟨(hasDac_tick r).2 dac, (calm_tick r).2 calm, ?_⟩
  match arm with
  | none => trivial
  | some false => exact sound.leaves_false_tick dac leaves
  | some true => exact leaves_true_tick leaves

/-- A setting that neither forces the player to stop nor lets it run leaves what the player was handed. -/
theorem Handed.configure (handed : Handed arm r) {i : Nat} {w : Word} (calm : (r.player.put i w).Calm)
    (idle : ¬r.player.MayRun → ¬(r.player.put i w).MayRun) :
    Handed arm (r.step (.configure (.writeWord (Layout.offset i) w))) := by
  obtain ⟨dac, -, leaves⟩ := handed
  refine ⟨dac, calm, ?_⟩
  match arm with
  | none => trivial
  | some false => exact leaves
  | some true => exact ⟨leaves.1, leaves.2.1, fun ready => idle (leaves.2.2 ready)⟩

/-- Clearing `run` is such a setting. -/
theorem Handed.clear (sound : r.Sound cycles) (handed : Handed arm r) :
    Handed arm (r.step (.configure (.writeWord (Layout.offset Player.run) 0))) := by
  have found : Player.layout.fields[Player.run]? = some ⟨"run", 1, .readWrite⟩ := rfl
  have value (j : Nat) := sound.player.value_put found rfl 0 j
  refine handed.configure ?_ fun _ may => ?_
  · rw [Player.Calm, value, if_neg (by decide)]
    exact handed.calm
  · have set := may.1
    rw [value, if_pos rfl] at set
    exact absurd set (by decide)

/-- So are the settings other than those that start and stop the player. -/
theorem Handed.set (sound : r.Sound cycles) (handed : Handed arm r) {i : Nat} {f : Field}
    (found : Player.layout.fields[i]? = some f) (writable : f.access = .readWrite)
    (other : Player.forceStop < i) (w : Word) :
    Handed arm (r.step (.configure (.writeWord (Layout.offset i) w))) := by
  have kept {j : Nat} (beside : j ≤ Player.forceStop) :
      (r.player.put i w).registers.value j = r.player.registers.value j := by
    rw [sound.player.value_put found writable w j, if_neg (Nat.ne_of_lt (Nat.lt_of_le_of_lt beside other))]
  refine handed.configure ?_ fun may runs => may ?_
  · rw [Player.Calm, kept (Nat.le_refl _)]
    exact handed.calm
  · obtain ⟨set, calm⟩ := runs
    rw [kept (by decide)] at set calm
    exact ⟨set, calm⟩

/-- Who has the RAM of the samples, and what is in it, is another matter. -/
theorem Handed.selectRam (handed : Handed arm r) (req : Request) : Handed arm (r.step (.selectRam req)) :=
  ⟨handed.dac, handed.calm, handed.leaves⟩

theorem Handed.ram (handed : Handed arm r) (requester : Nat) (req : Request) :
    Handed arm (r.step (.ram requester req)) :=
  ⟨handed.dac, handed.calm, handed.leaves⟩

/-- Another master has the converter, and what is known of `arm` when it hands it over: if `arm` is high,
that the player is at rest as well. -/
structure Lent (arm : Option Bool) (r : Rig) : Prop where
  apart : ¬r.HasDac
  calm : r.player.Calm
  known : ∀ high, arm = some high → r.controller.armed = high
  rests : arm = some true → r.player.AtRest

/-- The converter is handed to the player by the transaction that selects it. -/
theorem Lent.handed (lent : Lent arm r) {req : Request} (dac : (r.tick.step (.selectDac req)).HasDac) :
    Handed arm (r.tick.step (.selectDac req)) := by
  obtain ⟨apart, calm, known, rests⟩ := lent
  have same : (r.tick.step (.selectDac req)).controller.armed = r.controller.armed := by
    have left : (r.tick.step (.selectDac req)).controller = r.tick.controller :=
      BusSwitch.device_transactControl r.tick.dac.switch req
    rw [left, controller_tick_of_apart apart, Spi.Controller.armed_tick]
  refine ⟨dac, (calm_tick r).2 calm, ?_⟩
  match arm with
  | none => trivial
  | some false =>
    intro high
    rw [same, known false rfl] at high
    cases high
  | some true =>
    have settled : r.tick.player = r.player.settle := by
      rw [tick_of_atRest (rests rfl)]
    refine ⟨same.trans (known true rfl), ?_⟩
    show r.tick.player.AtRest
    rw [settled]
    exact (rests rfl).settle

/-! ## The start -/

/-- The player is about to play the samples once, with `spacing` ticks between two of them. -/
structure Started (arm : Option Bool) (samples : List Word) (spacing : Word) (r : Rig) : Prop where
  begins : Begins r.score r
  known : ∀ high, arm = some high → r.controller.armed = high
  stocked : samples <+: r.memory.words.toList
  count : r.score.width = samples.length
  spaced : r.score.spacing = spacing.toNat
  once : r.score.loops = false

variable {samples : List Word}

/-- The last of the samples that are played is the last one of those that were put into the RAM. -/
theorem Started.last {spacing : Word} (started : Started arm samples spacing r) {last : Word}
    (ends : samples.getLast? = some last) :
    r.score.count = samples.length ∧ r.score.sample (r.score.count - 1) = last := by
  have nonempty : samples ≠ [] := fun none => by
    rw [none] at ends
    cases ends
  have positive : 0 < samples.length := List.length_pos_iff.2 nonempty
  have count : r.score.count = samples.length := by
    rw [Score.count, started.count]
    omega
  have found : samples[samples.length - 1]? = some last := by
    rw [← List.getLast?_eq_getElem?, ends]
  have stored : r.memory.words.toList[samples.length - 1]? = some last := by
    obtain ⟨rest, split⟩ := started.stocked
    rw [← split, List.getElem?_append_left (by omega), found]
  refine ⟨count, ?_⟩
  rw [count]
  show r.memory.words[samples.length - 1]?.getD 0 = last
  rw [← Array.getElem?_toList, stored]
  rfl

/-- If `arm` is low then, the samples are played in this time, and the converter has the last one. -/
theorem Started.ends {spacing last : Word} (started : Started arm samples spacing r)
    (sound : r.Sound cycles) (low : r.controller.armed = false) (ends : samples.getLast? = some last)
    {n : Nat} (enough : (samples.length + 2) * (spacing.toNat + cycles + 8) ≤ n) :
    (Clocked.ticks n r).player.state = .finished ∧
      (Clocked.ticks n r).chip.dac = last &&& Ad5791.dataMask := by
  obtain ⟨count, sample⟩ := started.last ends
  have delay : r.score.cycles = cycles := sound.controller.delay
  have period : r.score.period = spacing.toNat + cycles + 5 := by
    rw [Score.period, started.spaced, delay]
  have played : samples.length * (spacing.toNat + cycles + 5) ≤
      samples.length * (spacing.toNat + cycles + 8) := Nat.mul_le_mul_left _ (by omega)
  rw [Nat.add_mul] at enough
  obtain ⟨ended, shown⟩ : Ended r.score (Clocked.ticks n r) :=
    started.begins.ends started.once low (by rw [count, period, delay]; omega)
  rw [sample] at shown
  exact ⟨ended.finished, shown⟩

end Rig

end Waveform

end InstrumentBus
