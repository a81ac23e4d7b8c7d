import InstrumentBus.Proofs.Ad5791.Frame
import InstrumentBus.Proofs.Waveform.Rig

/-!
# The course of one sample

A player that is connected to its samples and to its converter goes through the stages of a sample in
lockstep with the controller. `At` says that a rig is at a stage of a sample, and there is one lemma for
what a step does at each stage. Where nothing has to be waited for, a sample takes `Score.period` steps:
`At.ticks_within` and `At.ticks_period` follow the rig through a sample and into the next one.
-/

namespace InstrumentBus.Waveform

/-- What a player has to play, and how long a session of its controller takes. -/
structure Score where
  /-- The contents of the sample RAM. -/
  words : Array Word
  /-- The setting of the number of samples. -/
  width : Nat
  /-- The setting of the ticks between two samples. -/
  spacing : Nat
  /-- Whether the first sample follows the last one. -/
  loops : Bool
  cycles : Nat
deriving DecidableEq, Repr

namespace Score

/-- The number of samples that are played: at least one. -/
def count (s : Score) : Nat :=
  max 1 s.width

/-- The sample in place `k`; zero past the end of the RAM. -/
def sample (s : Score) (k : Nat) : Word :=
  s.words[k]?.getD 0

/-- The frame of the sample in place `k`. -/
def frame (s : Score) (k : Nat) : Word :=
  Player.sampleFrame (s.sample k)

/-- The steps from one sample to the next. -/
def period (s : Score) : Nat :=
  s.spacing + s.cycles + 5

theorem frame_and_frameMask (s : Score) (k : Nat) :
    s.frame k &&& widthMask Ad5791.frameWidth = s.frame k :=
  Ad5791.writeFrame_and_frameMask .dac (s.sample k)

theorem count_pos (s : Score) : 0 < s.count :=
  Nat.lt_of_lt_of_le Nat.one_pos (Nat.le_max_left 1 s.width)

end Score

namespace Rig

variable {r : Rig} {s : Score} {k : Nat}

/-- What the player of a rig has to play. -/
def score (r : Rig) : Score :=
  { words := r.memory.words
    width := (r.player.registers.value Player.width).toNat
    spacing := (r.player.registers.value Player.spacing).toNat
    loops := r.player.registers.value Player.doLoop = 1
    cycles := r.controller.cycles }

/-- The player of a rig may run, is connected on both sides and has `s` to play. -/
structure Performs (s : Score) (r : Rig) : Prop where
  sound : r.Sound s.cycles
  ram : r.HasRam
  dac : r.HasDac
  may : r.player.MayRun
  score : r.score = s

namespace Performs

theorem clock (performs : r.Performs s) : r.clock.Performs s := by
  have delay : r.clock.controller.cycles = r.controller.cycles := Spi.Controller.cycles_tick _
  refine ⟨performs.sound.clock, performs.ram, performs.dac, performs.may, ?_⟩
  rw [← performs.score]
  exact congrArg (fun cycles => { r.score with cycles }) delay

theorem tick (performs : r.Performs s) : r.tick.Performs s := by
  have sound := performs.sound.tick
  refine ⟨sound, (hasRam_tick r).2 performs.ram, (hasDac_tick r).2 performs.dac,
    (Player.mayRun_tick r.player r.ram r.clock.dac).2 performs.may, ?_⟩
  have setting {j : Nat} (low : j < Player.finishedOrReady) :
      r.tick.player.registers.value j = r.player.registers.value j :=
    Player.value_tick r.player r.ram r.clock.dac low
  rw [← performs.score]
  unfold Rig.score
  rw [memory_tick, setting (by decide), setting (by decide), setting (by decide),
    sound.controller.delay, ← performs.sound.controller.delay]

theorem width (performs : r.Performs s) :
    (r.player.registers.value Player.width).toNat = s.width :=
  congrArg Score.width performs.score

theorem spacing (performs : r.Performs s) :
    (r.player.registers.value Player.spacing).toNat = s.spacing :=
  congrArg Score.spacing performs.score

theorem loops (performs : r.Performs s) :
    r.player.registers.value Player.doLoop = 1 ↔ s.loops = true := by
  rw [← performs.score]
  exact decide_eq_true_iff.symm

/-- The number of samples fits the register that counts them. -/
theorem count_lt (performs : r.Performs s) : s.count < 2 ^ 16 := by
  have fits : (r.player.registers.value Player.width).toNat < 2 ^ 16 :=
    performs.sound.player.fits.toNat_value_lt Player.width_field
  rw [performs.width] at fits
  rw [Score.count]
  omega

theorem controller_put (performs : r.Performs s) (i : Nat) (w : Word) :
    (r.put i w).controller = r.controller.put i w := by
  rw [Rig.controller_put, if_pos performs.dac]

/-- A connected player hears the sample at its cursor. -/
theorem heard (performs : r.Performs s)
    (cursor : (r.player.registers.value Player.cursor).toNat = k) : r.heard = s.sample k := by
  rw [performs.sound.heard_eq, if_pos performs.ram, cursor, ← performs.score]
  rfl

/-- Which sample follows, or none. -/
theorem advance (performs : r.Performs s)
    (cursor : (r.player.registers.value Player.cursor).toNat = k) (within : k < s.count) :
    (k + 1 < s.count ∧ r.player.advance.state = r.player.state ∧ r.player.advance.phase = .load ∧
      (r.player.advance.registers.value Player.cursor).toNat = k + 1) ∨
    (k + 1 = s.count ∧ s.loops = true ∧ r.player.advance.state = r.player.state ∧
      r.player.advance.phase = .load ∧ (r.player.advance.registers.value Player.cursor).toNat = 0) ∨
    (k + 1 = s.count ∧ s.loops = false ∧ r.player.advance.state = .finished) := by
  have small := performs.count_lt
  have next : (r.player.registers.value Player.cursor + 1).toNat = k + 1 := by
    have one : (1 : Word).toNat = 1 := rfl
    rw [BitVec.toNat_add, cursor, one]
    omega
  have more : r.player.registers.value Player.cursor + 1 < r.player.registers.value Player.width ↔
      k + 1 < s.count := by
    rw [BitVec.lt_def, next, performs.width, Score.count]
    omega
  have driven (v : Word) (narrow : v.toNat < 2 ^ 16) :
      ((r.player.drive Player.cursor v).registers.value Player.cursor).toNat = v.toNat := by
    rw [Player.value_cursor_drive]
    exact toNat_and_widthMask_of_lt narrow
  unfold Player.advance
  dsimp only
  by_cases inside : k + 1 < s.count
  · rw [if_pos (more.2 inside)]
    refine .inl ⟨inside, rfl, rfl, ?_⟩
    exact (driven _ (by omega)).trans next
  · have last : k + 1 = s.count := by omega
    rw [if_neg fun below => inside (more.1 below)]
    by_cases again : s.loops = true
    · rw [if_pos (performs.loops.2 again)]
      exact .inr (.inl ⟨last, again, rfl, rfl, driven 0 (by decide)⟩)
    · rw [if_neg fun set => again (performs.loops.1 set)]
      exact .inr (.inr ⟨last, Bool.eq_false_iff.2 again, rfl⟩)

end Performs

/-! ## Stages -/

/-- The stages of a sample. -/
inductive Stage where
  /-- The sample is to be copied into the controller, which `misses` more polls find busy. -/
  | load (misses : Nat)
  /-- The frame is in the controller, which is to be armed. -/
  | arm (misses : Nat)
  /-- The frame is shifted after `left` more steps. -/
  | shift (left : Nat)
  /-- The session is released and `elapsed` steps are gone. -/
  | pause (elapsed : Nat)
deriving DecidableEq, Repr

/-- Where player and controller are at a stage of sample `k`. -/
def Stage.Holds (s : Score) (k : Nat) (r : Rig) : Stage → Prop
  | .load misses => r.player.phase = .load ∧ r.controller.Released misses
  | .arm misses =>
    r.player.phase = .transfer ∧ r.controller.Released misses ∧ r.controller.frame = s.frame k
  | .shift left =>
    r.player.phase = .awaitFrame ∧ r.controller.armed = true ∧ r.controller.ShiftsAfter left ∧
      r.controller.frame = s.frame k
  | .pause elapsed => r.player.phase = .wait elapsed ∧ r.controller.Released 0

/-- The stage of a sample that does not have to wait, a number of steps after it began. -/
def Stage.Timely (s : Score) (i : Nat) : Stage → Prop
  | .load misses => misses = 0 ∧ i = 0
  | .arm misses => misses = 0 ∧ i = 1
  | .shift left => i + left = s.cycles + 3 ∧ 2 ≤ i
  | .pause elapsed => i = s.cycles + 4 + elapsed

/-- The rig performs `s` and is at a stage of sample `k`. -/
structure At (s : Score) (k : Nat) (stage : Stage) (r : Rig) : Prop where
  performs : r.Performs s
  running : r.player.state = .running
  cursor : (r.player.registers.value Player.cursor).toNat = k
  within : k < s.count
  holds : stage.Holds s k r

/-- The player performed `s` and is past its last sample. -/
structure Over (s : Score) (r : Rig) : Prop where
  performs : r.Performs s
  finished : r.player.state = .finished
  released : r.controller.Released 0

/-- A player that is about to start; of the controller nothing is known but that the player has it. -/
structure Begins (s : Score) (r : Rig) : Prop where
  performs : r.Performs s
  ready : r.player.state = .ready

theorem Begins.tick_eq (begins : Begins s r) :
    r.tick = { r.clock with player := (r.player.drive Player.cursor 0).enter .running } :=
  move_of_starts (r := r.clock) begins.ready begins.performs.may

/-- The player starts with the first sample. -/
theorem Begins.tick (begins : Begins s r) {misses : Nat}
    (released : r.controller.tick.Released misses) : At s 0 (.load misses) r.tick := by
  have ticked := begins.tick_eq
  have first : ((r.player.drive Player.cursor 0).enter .running).registers.value Player.cursor = 0 :=
    (Player.value_enter _ _ (by decide) (by decide)).trans (Player.value_cursor_drive r.player 0)
  refine ⟨begins.performs.tick, by rw [ticked]; rfl, ?_, s.count_pos, by rw [ticked]; rfl, ?_⟩
  · rw [ticked]
    exact congrArg BitVec.toNat first
  · rw [ticked]
    exact released

namespace At

/-- A step that moves only the phase of the player stays with the sample. -/
theorem next {stage after : Stage} {phase : Phase} (at_ : At s k stage r)
    (moved : r.tick.player = { r.player with phase }) (holds : after.Holds s k r.tick) :
    At s k after r.tick := by
  refine ⟨at_.performs.tick, ?_, ?_, at_.within, holds⟩
  · rw [moved]
    exact at_.running
  · rw [moved]
    exact at_.cursor

theorem load {misses : Nat} (at_ : At s k (.load misses) r) :
    At s k (.arm (misses - 1)) r.tick := by
  obtain ⟨phase, low, busy⟩ := at_.holds
  have sound := at_.performs.sound.controller
  have heard : r.clock.heard = s.sample k := at_.performs.clock.heard at_.cursor
  have ticked : r.tick = _ := move_of_load (r := r.clock) at_.running at_.performs.may phase
  have left : r.tick.controller = r.controller.tick.put Spi.Controller.toSlave (s.frame k) := by
    rw [ticked, heard]
    exact at_.performs.clock.controller_put _ _
  have released : r.controller.tick.Released (misses - 1) := by
    cases misses with
    | zero => exact (sound.tick_of_released_zero ⟨low, busy⟩).1
    | succ n => exact (sound.tick_of_released_succ ⟨low, busy⟩).1
  refine at_.next (by rw [ticked]; rfl) ⟨by rw [ticked], ?_, ?_⟩
  · rw [left]
    exact ⟨(sound.tick.armed_put_toSlave _).trans released.1, released.2⟩
  · rw [left, sound.tick.frame_put_toSlave, s.frame_and_frameMask]

theorem arm_succ {misses : Nat} (at_ : At s k (.arm (misses + 1)) r) :
    At s k (.arm misses) r.tick := by
  obtain ⟨phase, released, frame⟩ := at_.holds
  obtain ⟨still, busy⟩ := at_.performs.sound.controller.tick_of_released_succ released
  have ticked : r.tick = _ :=
    at_.performs.clock.sound.move_of_transfer (r := r.clock) at_.running at_.performs.may phase
  rw [if_neg fun opens => busy opens.2] at ticked
  refine at_.next (by rw [ticked]; rfl) ⟨by rw [ticked]; exact phase, by rw [ticked]; exact still, ?_⟩
  rw [ticked]
  exact (Spi.Controller.frame_tick _).trans frame

theorem arm_zero (at_ : At s k (.arm 0) r) : At s k (.shift (s.cycles + 1)) r.tick := by
  obtain ⟨phase, released, frame⟩ := at_.holds
  have sound := at_.performs.sound.controller
  obtain ⟨-, idle, -⟩ := sound.tick_of_released_zero released
  have ticked : r.tick = _ :=
    at_.performs.clock.sound.move_of_transfer (r := r.clock) at_.running at_.performs.may phase
  rw [if_pos ⟨at_.performs.dac, idle⟩] at ticked
  have left : r.tick.controller = r.controller.tick.put Spi.Controller.arm 1 := by
    rw [ticked]
    exact at_.performs.clock.controller_put _ _
  have armed : r.tick.controller.armed = true := by
    rw [left, sound.tick.armed_put_arm]
    decide
  refine at_.next (by rw [ticked]; rfl) ⟨by rw [ticked], armed, .inr ⟨?_, armed, ?_⟩, ?_⟩
  · rw [left]
    exact idle
  · rw [at_.performs.tick.sound.controller.delay]
  · rw [left, sound.tick.frame_put_arm]
    exact (Spi.Controller.frame_tick _).trans frame

theorem shift_succ {left : Nat} (at_ : At s k (.shift (left + 1)) r) :
    At s k (.shift left) r.tick ∧ r.controller.due = [] := by
  obtain ⟨phase, armed, later, frame⟩ := at_.holds
  have sound := at_.performs.sound.controller
  obtain ⟨closer, open_, due⟩ := sound.tick_of_shiftsAfter_succ later
  have ticked : r.tick = _ :=
    at_.performs.clock.sound.move_of_awaitFrame (r := r.clock) at_.running at_.performs.may phase
  have waits : r.controller.tick.transfer ≠ .done := fun complete => by
    rw [sound.tick.complete, if_pos complete] at open_
    cases open_
  rw [if_neg fun both => waits both.2] at ticked
  refine ⟨at_.next (by rw [ticked]; rfl)
    ⟨by rw [ticked]; exact phase, ?_, by rw [ticked]; exact closer, ?_⟩, due⟩
  · rw [ticked]
    exact (Spi.Controller.armed_tick _).trans armed
  · rw [ticked]
    exact (Spi.Controller.frame_tick _).trans frame

theorem shift_zero (at_ : At s k (.shift 0) r) :
    At s k (.pause 0) r.tick ∧ r.controller.due = [s.frame k] := by
  obtain ⟨phase, armed, last, frame⟩ := at_.holds
  have sound := at_.performs.sound.controller
  obtain ⟨done, -, due, -⟩ := sound.tick_of_shiftsAfter_zero last
  have ticked : r.tick = _ :=
    at_.performs.clock.sound.move_of_awaitFrame (r := r.clock) at_.running at_.performs.may phase
  rw [if_pos ⟨at_.performs.dac, done⟩] at ticked
  have left : r.tick.controller = r.controller.tick.put Spi.Controller.arm 0 := by
    rw [ticked]
    exact at_.performs.clock.controller_put _ _
  refine ⟨at_.next (by rw [ticked]; rfl) ⟨by rw [ticked], ?_⟩, ?_⟩
  · rw [left]
    refine ⟨(sound.tick.armed_put_arm 0).trans (by decide), ?_⟩
    show r.controller.tick.misses = 0
    rw [Spi.Controller.misses, done]
  · rw [due, frame]

theorem pause {elapsed : Nat} (at_ : At s k (.pause elapsed) r) (more : elapsed < s.spacing) :
    At s k (.pause (elapsed + 1)) r.tick ∧ r.controller.due = [] := by
  obtain ⟨phase, released⟩ := at_.holds
  obtain ⟨still, -, due⟩ := at_.performs.sound.controller.tick_of_released_zero released
  have ticked : r.tick = _ := move_of_wait (r := r.clock) at_.running at_.performs.may phase
  have counts : elapsed < (r.clock.player.registers.value Player.spacing).toNat := by
    rw [at_.performs.clock.spacing]
    exact more
  rw [if_pos counts] at ticked
  exact ⟨at_.next (by rw [ticked]; rfl) ⟨by rw [ticked], by rw [ticked]; exact still⟩, due⟩

/-- The next sample follows the pause, or the first one again, or nothing. -/
theorem pause_last (at_ : At s k (.pause s.spacing) r) :
    r.controller.due = [] ∧
      ((k + 1 < s.count ∧ At s (k + 1) (.load 0) r.tick) ∨
        (k + 1 = s.count ∧ s.loops = true ∧ At s 0 (.load 0) r.tick) ∨
        (k + 1 = s.count ∧ s.loops = false ∧ Over s r.tick)) := by
  obtain ⟨phase, released⟩ := at_.holds
  obtain ⟨still, -, due⟩ := at_.performs.sound.controller.tick_of_released_zero released
  have ticked : r.tick = _ := move_of_wait (r := r.clock) at_.running at_.performs.may phase
  have waited : ¬s.spacing < (r.clock.player.registers.value Player.spacing).toNat := by
    rw [at_.performs.clock.spacing]
    exact Nat.lt_irrefl _
  rw [if_neg waited] at ticked
  have left : r.tick.player = r.player.advance := by
    rw [ticked]
    rfl
  have rests : r.tick.controller.Released 0 := by
    rw [ticked]
    exact still
  refine ⟨due, ?_⟩
  rcases at_.performs.advance at_.cursor at_.within with ⟨more, state, loads, cursor⟩ |
    ⟨last, again, state, loads, cursor⟩ | ⟨last, once, state⟩
  · exact .inl ⟨more, at_.performs.tick, left ▸ state.trans at_.running, left ▸ cursor, more,
      left ▸ loads, rests⟩
  · exact .inr (.inl ⟨last, again, at_.performs.tick, left ▸ state.trans at_.running, left ▸ cursor,
      s.count_pos, left ▸ loads, rests⟩)
  · exact .inr (.inr ⟨last, once, at_.performs.tick, left ▸ state, rests⟩)

/-- The last stage of a sample that does not have to wait. -/
theorem at_last {stage : Stage} {i : Nat} (at_ : At s k stage r) (timely : stage.Timely s i)
    (last : i + 1 = s.period) : At s k (.pause s.spacing) r ∧ i ≠ s.cycles + 3 := by
  rw [Score.period] at last
  cases stage with
  | load misses =>
    obtain ⟨-, rfl⟩ := timely
    omega
  | arm misses =>
    obtain ⟨-, rfl⟩ := timely
    omega
  | shift left =>
    obtain ⟨sum, -⟩ := timely
    omega
  | pause elapsed =>
    rw [Stage.Timely] at timely
    have full : elapsed = s.spacing := by omega
    exact ⟨full ▸ at_, by omega⟩

/-- A step within a sample that does not have to wait, and the frame that the step shifts. -/
theorem tick_within {stage : Stage} {i : Nat} (at_ : At s k stage r) (timely : stage.Timely s i)
    (inside : i + 1 < s.period) :
    (∃ after : Stage, after.Timely s (i + 1) ∧ At s k after r.tick) ∧
      r.controller.due = if i = s.cycles + 3 then [s.frame k] else [] := by
  have sound := at_.performs.sound.controller
  rw [Score.period] at inside
  cases stage with
  | load misses =>
    obtain ⟨rfl, rfl⟩ := timely
    rw [if_neg (by omega)]
    exact ⟨⟨.arm 0, ⟨rfl, rfl⟩, at_.load⟩, (sound.tick_of_released_zero at_.holds.2).2.2⟩
  | arm misses =>
    obtain ⟨rfl, rfl⟩ := timely
    rw [if_neg (by omega)]
    exact ⟨⟨.shift (s.cycles + 1), ⟨by omega, by omega⟩, at_.arm_zero⟩,
      (sound.tick_of_released_zero at_.holds.2.1).2.2⟩
  | shift left =>
    obtain ⟨sum, later⟩ := timely
    cases left with
    | zero =>
      obtain ⟨after, due⟩ := at_.shift_zero
      rw [if_pos (by omega)]
      exact ⟨⟨.pause 0, by rw [Stage.Timely]; omega, after⟩, due⟩
    | succ left =>
      obtain ⟨after, due⟩ := at_.shift_succ
      rw [if_neg (by omega)]
      exact ⟨⟨.shift left, ⟨by omega, by omega⟩, after⟩, due⟩
  | pause elapsed =>
    rw [Stage.Timely] at timely
    obtain ⟨after, due⟩ := at_.pause (by omega)
    rw [if_neg (by omega)]
    exact ⟨⟨.pause (elapsed + 1), by rw [Stage.Timely]; omega, after⟩, due⟩

/-- Where a rig is after some steps of a sample that does not have to wait. -/
theorem ticks_within (at_ : At s k (.load 0) r) {i : Nat} (inside : i < s.period) :
    ∃ stage : Stage, stage.Timely s i ∧ At s k stage (Clocked.ticks i r) := by
  induction i with
  | zero => exact ⟨.load 0, ⟨rfl, rfl⟩, at_⟩
  | succ i ih =>
    obtain ⟨stage, timely, here⟩ := ih (Nat.lt_of_succ_lt inside)
    rw [Clocked.ticks_succ]
    exact (here.tick_within timely inside).1

/-- A sample that does not have to wait is shifted in one step, and no step but this one shifts
anything. -/
theorem due_within (at_ : At s k (.load 0) r) {i : Nat} (inside : i < s.period) :
    (Clocked.ticks i r).controller.due = if i = s.cycles + 3 then [s.frame k] else [] := by
  obtain ⟨stage, timely, here⟩ := at_.ticks_within inside
  by_cases more : i + 1 < s.period
  · exact (here.tick_within timely more).2
  · obtain ⟨here, apart⟩ := here.at_last timely (by omega)
    rw [if_neg apart]
    exact here.pause_last.1

/-- After its period a sample is over. -/
theorem ticks_period (at_ : At s k (.load 0) r) :
    (k + 1 < s.count ∧ At s (k + 1) (.load 0) (Clocked.ticks s.period r)) ∨
      (k + 1 = s.count ∧ s.loops = true ∧ At s 0 (.load 0) (Clocked.ticks s.period r)) ∨
      (k + 1 = s.count ∧ s.loops = false ∧ Over s (Clocked.ticks s.period r)) := by
  have last : s.period = s.period - 1 + 1 := by
    rw [Score.period]
    omega
  obtain ⟨stage, timely, here⟩ := at_.ticks_within (i := s.period - 1) (by omega)
  rw [last, Clocked.ticks_succ]
  exact (here.at_last timely (by omega)).1.pause_last.2

/-- Where a rig is after some samples that do not have to wait. -/
theorem ticks_samples (at_ : At s 0 (.load 0) r) {n : Nat} (plays : s.loops = true ∨ n < s.count) :
    At s (n % s.count) (.load 0) (Clocked.ticks (n * s.period) r) := by
  induction n with
  | zero =>
    rw [Nat.zero_mul, Nat.zero_mod]
    exact at_
  | succ n ih =>
    have here := ih (plays.imp_right Nat.lt_of_succ_lt)
    have next : (n + 1) % s.count = (n % s.count + 1) % s.count := (Nat.mod_add_mod n s.count 1).symm
    rw [Nat.succ_mul, Clocked.ticks_add, next]
    rcases here.ticks_period with ⟨more, there⟩ | ⟨last, -, there⟩ | ⟨last, once, -⟩
    · rw [Nat.mod_eq_of_lt more]
      exact there
    · rw [last, Nat.mod_self]
      exact there
    · have more : n + 1 < s.count := plays.resolve_left (Bool.eq_false_iff.1 once)
      rw [Nat.mod_eq_of_lt (Nat.lt_of_succ_lt more)] at last
      omega

/-- Where a rig is once the last sample is over. -/
theorem ticks_count (at_ : At s 0 (.load 0) r) (once : s.loops = false) :
    Over s (Clocked.ticks (s.count * s.period) r) := by
  have positive := s.count_pos
  obtain ⟨n, count⟩ : ∃ n, s.count = n + 1 := ⟨s.count - 1, by omega⟩
  have here := at_.ticks_samples (n := n) (.inr (by omega))
  rw [Nat.mod_eq_of_lt (by omega)] at here
  rw [count, Nat.succ_mul, Clocked.ticks_add]
  rcases here.ticks_period with ⟨more, -⟩ | ⟨-, again, -⟩ | ⟨-, -, ended⟩
  · omega
  · rw [once] at again
    cases again
  · exact ended

end At

/-! ## Past the last sample -/

/-- A player past its last sample stays there, and nothing is shifted any more. -/
theorem Over.tick (ended : Over s r) : Over s r.tick ∧ r.controller.due = [] := by
  obtain ⟨performs, finished, released⟩ := ended
  obtain ⟨still, -, due⟩ := performs.sound.controller.tick_of_released_zero released
  have idle : r.clock.player.state ≠ .running := fun running => by
    cases finished.symm.trans running
  have ready : r.clock.player.state ≠ .ready := fun ready => by
    cases finished.symm.trans ready
  have ticked : r.tick = _ := move_of_rests idle fun state => absurd state ready
  have settled : r.player.settle = r.player := by
    unfold Player.settle
    rw [if_neg]
    rintro (forced | ⟨-, cleared⟩)
    · exact performs.may.2 forced
    · exact cleared performs.may.1
  refine ⟨⟨performs.tick, ?_, ?_⟩, due⟩
  · rw [ticked]
    exact (congrArg Player.state settled).trans finished
  · rw [ticked]
    exact still

theorem Over.ticks (ended : Over s r) (n : Nat) : Over s (Clocked.ticks n r) := by
  induction n generalizing r with
  | zero => exact ended
  | succ n ih => exact ih ended.tick.1

end Rig

end InstrumentBus.Waveform
