import InstrumentBus.Proofs.Waveform.Playing

/-!
# How a performance ends

A player that starts with its converter's `arm` low waits until the controller is free, plays every sample
once and finishes, and the converter is left with the last sample (`Begins.ends`). The steps that remain at
a stage are counted (`Stage.left`), and every step takes one. A player that starts while another master's
`arm` is still high waits for a controller that never becomes free (`Begins.waits`).
-/

namespace InstrumentBus.Waveform.Rig

open Ad5791 (dataMask)

variable {r : Rig} {s : Score} {k n : Nat}

/-! ## Steps to the end -/

/-- The steps that a sample takes from a stage on. -/
def Stage.left (s : Score) : Stage → Nat
  | .load misses => s.period + (misses - 1)
  | .arm misses => s.spacing + s.cycles + 4 + misses
  | .shift left => s.spacing + 2 + left
  | .pause elapsed => s.spacing + 1 - elapsed

/-- After its frame was shifted, the sample is in the converter. -/
def Stage.Shown (s : Score) (k : Nat) (r : Rig) : Stage → Prop
  | .pause elapsed => elapsed ≤ s.spacing ∧ r.chip.dac = s.sample k &&& dataMask
  | _ => True

/-- The performance is over in `n` steps. -/
def Nears (s : Score) (n : Nat) (r : Rig) : Prop :=
  ∃ k stage, At s k stage r ∧ stage.Shown s k r ∧ n = stage.left s + (s.count - 1 - k) * s.period

/-- The performance is over, and the converter has the last sample. -/
structure Ended (s : Score) (r : Rig) : Prop where
  past : Over s r
  shown : r.chip.dac = s.sample (s.count - 1) &&& dataMask

/-- A step that shifts nothing does not reach the converter. -/
theorem chip_tick_of_nothing_due (due : r.controller.due = []) : r.tick.chip = r.chip := by
  rw [chip_tick, due]
  rfl

/-- A step before the last takes one of those that remain. -/
theorem Nears.tick (nears : Nears s (n + 1) r) (once : s.loops = false) :
    Nears s n r.tick ∨ n = 0 ∧ Ended s r.tick := by
  obtain ⟨k, stage, at_, shown, count⟩ := nears
  have within := at_.within
  cases stage with
  | load misses =>
    refine .inl ⟨k, _, at_.load, trivial, ?_⟩
    have period : s.period = s.spacing + s.cycles + 5 := rfl
    simp only [Stage.left] at count ⊢
    omega
  | arm misses =>
    cases misses with
    | zero =>
      refine .inl ⟨k, _, at_.arm_zero, trivial, ?_⟩
      simp only [Stage.left] at count ⊢
      omega
    | succ misses =>
      refine .inl ⟨k, _, at_.arm_succ, trivial, ?_⟩
      simp only [Stage.left] at count ⊢
      omega
  | shift left =>
    cases left with
    | zero =>
      obtain ⟨after, due⟩ := at_.shift_zero
      have stored : r.tick.chip = r.chip.receive (s.frame k) := by
        rw [chip_tick, due]
        rfl
      refine .inl ⟨k, _, after, ⟨Nat.zero_le _, ?_⟩, ?_⟩
      · rw [stored, Score.frame, Player.sampleFrame, Ad5791.receive_writeFrame]
        rfl
      · simp only [Stage.left] at count ⊢
        omega
    | succ left =>
      refine .inl ⟨k, _, at_.shift_succ.1, trivial, ?_⟩
      simp only [Stage.left] at count ⊢
      omega
  | pause elapsed =>
    obtain ⟨bounded, code⟩ := shown
    rw [Stage.left] at count
    by_cases more : elapsed < s.spacing
    · obtain ⟨after, due⟩ := at_.pause more
      refine .inl ⟨k, _, after, ⟨more, ?_⟩, ?_⟩
      · rw [chip_tick_of_nothing_due due, code]
      · rw [Stage.left]
        omega
    · obtain rfl : elapsed = s.spacing := by omega
      obtain ⟨due, follows⟩ := at_.pause_last
      rcases follows with ⟨inside, after⟩ | ⟨-, again, -⟩ | ⟨last, -, past⟩
      · -- the next sample takes a whole period
        obtain ⟨rest, split⟩ : ∃ rest, s.count - 1 - k = rest + 1 := ⟨s.count - 2 - k, by omega⟩
        refine .inl ⟨k + 1, _, after, trivial, ?_⟩
        have fewer : s.count - 1 - (k + 1) = rest := by omega
        rw [Stage.left, fewer]
        rw [split, Nat.succ_mul] at count
        omega
      · rw [once] at again
        cases again
      · have place : s.count - 1 = k := by omega
        refine .inr ⟨?_, past, ?_⟩
        · rw [place, Nat.sub_self, Nat.zero_mul] at count
          omega
        · rw [chip_tick_of_nothing_due due, code, place]

theorem Ended.tick (ended : Ended s r) : Ended s r.tick := by
  obtain ⟨past, shown⟩ := ended
  obtain ⟨after, due⟩ := past.tick
  exact ⟨after, (congrArg Ad5791.Chip.dac (chip_tick_of_nothing_due due)).trans shown⟩

theorem Ended.ticks (ended : Ended s r) (n : Nat) : Ended s (Clocked.ticks n r) := by
  induction n generalizing r with
  | zero => exact ended
  | succ n ih => exact ih ended.tick

/-- Steps remain at every stage. -/
theorem Stage.left_pos {stage : Stage} (shown : stage.Shown s k r) : 0 < stage.left s := by
  cases stage with
  | load misses => exact Nat.lt_of_lt_of_le (Nat.succ_pos _) (Nat.le_add_right _ _)
  | arm misses => exact Nat.lt_of_lt_of_le (Nat.succ_pos _) (Nat.le_add_right _ _)
  | shift left => exact Nat.lt_of_lt_of_le (Nat.succ_pos _) (Nat.le_add_right _ _)
  | pause elapsed => exact Nat.sub_pos_of_lt (Nat.lt_succ_of_le shown.1)

/-- After the steps that remain, and after any more, the performance is over. -/
theorem Nears.ticks (nears : Nears s n r) (once : s.loops = false) {m : Nat} (enough : n ≤ m) :
    Ended s (Clocked.ticks m r) := by
  induction n generalizing r m with
  | zero =>
    obtain ⟨k, stage, -, shown, none⟩ := nears
    have more := Stage.left_pos shown
    omega
  | succ n ih =>
    obtain ⟨m, rfl⟩ : ∃ later, m = later + 1 := ⟨m - 1, by omega⟩
    rcases nears.tick once with closer | ⟨-, ended⟩
    · exact ih closer (Nat.le_of_succ_le_succ enough)
    · exact ended.ticks m

/-! ## With a released controller -/

namespace Begins

/-- The player starts with the first sample, and finds the controller busy for at most `cycles` polls. -/
theorem tick_of_released (begins : Begins s r) (low : r.controller.armed = false) :
    ∃ misses ≤ s.cycles, At s 0 (.load misses) r.tick := by
  have sound := begins.performs.sound.controller
  have few : r.controller.tick.misses ≤ s.cycles := by
    have next := Spi.Controller.transfer_tick r.controller
    rw [low] at next
    rw [Spi.Controller.misses, next]
    cases transfer : r.controller.transfer with
    | idle => exact Nat.zero_le _
    | busy left =>
      have bound := sound.bounded left transfer
      cases left with
      | zero => exact Nat.zero_le _
      | succ left => exact bound
    | done => exact Nat.zero_le _
  exact ⟨_, few, begins.tick ⟨(Spi.Controller.armed_tick _).trans low, rfl⟩⟩

/-- A player that plays once through and starts while `arm` is low finishes, with the last sample in the
converter. -/
theorem ends (begins : Begins s r) (once : s.loops = false) (low : r.controller.armed = false) {m : Nat}
    (enough : s.count * s.period + s.cycles + 1 ≤ m) : Ended s (Clocked.ticks m r) := by
  obtain ⟨misses, few, at_⟩ := begins.tick_of_released low
  obtain ⟨m, rfl⟩ : ∃ later, m = later + 1 := ⟨m - 1, by omega⟩
  obtain ⟨rest, count⟩ : ∃ rest, s.count = rest + 1 := ⟨s.count - 1, by have := s.count_pos; omega⟩
  refine Nears.ticks ⟨0, _, at_, trivial, rfl⟩ once ?_
  rw [count, Nat.succ_mul] at enough
  rw [Stage.left, count, Nat.add_sub_cancel, Nat.sub_zero]
  omega

end Begins

/-! ## With a controller that somebody else left armed -/

/-- The player waits for a controller whose `arm` is high to become free. -/
structure Blocked (cycles : Nat) (r : Rig) : Prop where
  sound : r.Sound cycles
  plays : r.Plays
  phase : r.player.phase = .load ∨ r.player.phase = .transfer
  high : r.controller.armed = true

/-- A controller whose `arm` is high does not become free, and the player goes on waiting. -/
theorem Blocked.tick {cycles : Nat} (blocked : Blocked cycles r) : Blocked cycles r.tick := by
  obtain ⟨sound, ⟨running, may⟩, phase, high⟩ := blocked
  have clocked : r.clock.controller.armed = true := (Spi.Controller.armed_tick _).trans high
  have busy : r.clock.controller.transfer ≠ .idle := fun idle => by
    have low : r.clock.controller.armed = false := Spi.Controller.armed_of_tick_idle idle
    rw [clocked] at low
    cases low
  have mayStill := (Player.mayRun_tick r.player r.ram r.clock.dac).2 may
  rcases phase with load | transfer
  · have ticked : r.tick = _ := move_of_load (r := r.clock) running may load
    refine ⟨sound.tick, ⟨by rw [ticked]; exact running, mayStill⟩, .inr (by rw [ticked]), ?_⟩
    have left : r.tick.controller =
        (r.clock.put Spi.Controller.toSlave (Player.sampleFrame r.clock.heard)).controller := by
      rw [ticked]
      rfl
    rw [left, controller_put]
    split
    · exact (sound.clock.controller.armed_put_toSlave _).trans clocked
    · exact clocked
  · have ticked : r.tick = _ := sound.clock.move_of_transfer (r := r.clock) running may transfer
    rw [if_neg fun opens => busy opens.2] at ticked
    exact ⟨sound.tick, ⟨by rw [ticked]; exact running, mayStill⟩, .inr (by rw [ticked]; exact transfer),
      by rw [ticked]; exact clocked⟩

theorem Blocked.ticks {cycles : Nat} (blocked : Blocked cycles r) (n : Nat) :
    Blocked cycles (Clocked.ticks n r) := by
  induction n generalizing r with
  | zero => exact blocked
  | succ n ih => exact ih blocked.tick

/-- A player that starts while another master's `arm` is high never finishes. -/
theorem Begins.waits (begins : Begins s r) (high : r.controller.armed = true) (n : Nat) :
    (Clocked.ticks n r).player.state ≠ .finished := by
  have ticked := begins.tick_eq
  have blocked : Blocked s.cycles r.tick := by
    refine ⟨begins.performs.tick.sound, ⟨by rw [ticked]; rfl, begins.performs.tick.may⟩,
      .inl (by rw [ticked]; rfl), ?_⟩
    rw [ticked]
    exact (Spi.Controller.armed_tick _).trans high
  cases n with
  | zero =>
    intro finished
    cases begins.ready.symm.trans finished
  | succ n =>
    intro finished
    cases (blocked.ticks n).plays.1.symm.trans finished

end InstrumentBus.Waveform.Rig
