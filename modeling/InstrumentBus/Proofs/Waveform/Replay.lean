import InstrumentBus.Proofs.Waveform.Playing

/-!
# Exact replay

A player that starts with a free controller shifts the frame of every sample in a step that is known
beforehand (`Score.moment`), and shifts nothing in any other step, so that no sample is lost, doubled or
late (`samples_are_replayed`). The steps are counted from the start: step `n + 1` is the one that follows
`n` steps.
-/

namespace InstrumentBus.Waveform

/-- Whether frame number `n` is shifted at all: the frames of a player that loops never end. -/
def Score.Plays (s : Score) (n : Nat) : Prop :=
  s.loops = true ∨ n < s.count

/-- The step in which frame number `n` is shifted. -/
def Score.moment (s : Score) (n : Nat) : Nat :=
  s.cycles + 5 + n * s.period

namespace Score

variable {s : Score}

theorem moment_lt {m n : Nat} (before : m < n) : s.moment m < s.moment n := by
  have positive : 0 < s.period := by
    rw [period]
    omega
  have product : m * s.period < n * s.period := Nat.mul_lt_mul_of_pos_right before positive
  rw [moment, moment]
  omega

theorem moment_le {m n : Nat} (before : m ≤ n) : s.moment m ≤ s.moment n :=
  Nat.add_le_add_left (Nat.mul_le_mul_right s.period before) _

theorem Plays.of_le {m n : Nat} (plays : s.Plays n) (before : m ≤ n) : s.Plays m :=
  plays.imp_right fun within => Nat.lt_of_le_of_lt before within

end Score

namespace Rig

variable {r : Rig} {s : Score}

/-- Where a performance is after some steps: at a sample that is played, or over. -/
theorem At.ticks (at_ : At s 0 (.load 0) r) (n : Nat) {i : Nat} (inside : i < s.period) :
    (s.Plays n ∧ (∃ stage, At s (n % s.count) stage (Clocked.ticks (n * s.period + i) r)) ∧
      (Clocked.ticks (n * s.period + i) r).controller.due =
        if i = s.cycles + 3 then [s.frame (n % s.count)] else []) ∨
      (¬s.Plays n ∧ Over s (Clocked.ticks (n * s.period + i) r)) := by
  by_cases plays : s.Plays n
  · have here := at_.ticks_samples plays
    obtain ⟨stage, -, there⟩ := here.ticks_within inside
    rw [Clocked.ticks_add]
    exact .inl ⟨plays, ⟨stage, there⟩, here.due_within inside⟩
  · have once : s.loops = false := Bool.eq_false_iff.2 fun again => plays (.inl again)
    have beyond : s.count ≤ n := Nat.le_of_not_lt fun within => plays (.inr within)
    obtain ⟨rest, split⟩ := Nat.exists_eq_add_of_le beyond
    have steps : n * s.period + i = s.count * s.period + (rest * s.period + i) := by
      rw [split, Nat.add_mul, Nat.add_assoc]
    rw [steps, Clocked.ticks_add]
    exact .inr ⟨plays, (at_.ticks_count once).ticks _⟩

/-! ## From the first step on -/

/-- A rig whose player is about to start, with a free controller. -/
structure AboutToPlay (s : Score) (r : Rig) : Prop where
  performs : r.Performs s
  ready : r.player.state = .ready
  idle : r.controller.transfer = .idle
  low : r.controller.armed = false

namespace AboutToPlay

theorem tick (about : AboutToPlay s r) : At s 0 (.load 0) r.tick := by
  obtain ⟨performs, ready, idle, low⟩ := about
  have free : r.controller.Released 0 := ⟨low, by rw [Spi.Controller.misses, idle]⟩
  have begins : Begins s r := ⟨performs, ready⟩
  exact begins.tick (performs.sound.controller.tick_of_released_zero free).1

/-- The frames of a step, by the sample and the place within it that the step falls on. -/
theorem shifted_eq (about : AboutToPlay s r) (n : Nat) {i : Nat} (inside : i < s.period) :
    (s.Plays n ∧ r.shifted (n * s.period + i + 2) =
        if i = s.cycles + 3 then [s.frame (n % s.count)] else []) ∨
      (¬s.Plays n ∧ r.shifted (n * s.period + i + 2) = []) := by
  rcases about.tick.ticks n inside with ⟨plays, -, due⟩ | ⟨never, ended⟩
  · exact .inl ⟨plays, due⟩
  · exact .inr ⟨never, ended.tick.2⟩

theorem shifted_moment (about : AboutToPlay s r) {n : Nat} (plays : s.Plays n) :
    r.shifted (s.moment n) = [s.frame (n % s.count)] := by
  have inside : s.cycles + 3 < s.period := by
    rw [Score.period]
    omega
  have step : s.moment n = n * s.period + (s.cycles + 3) + 2 := by
    rw [Score.moment]
    omega
  rw [step]
  rcases about.shifted_eq n inside with ⟨-, due⟩ | ⟨never, -⟩
  · rw [due, if_pos rfl]
  · exact absurd plays never

theorem shifted_of_ne_moment (about : AboutToPlay s r) {t : Nat}
    (apart : ∀ n, s.Plays n → t ≠ s.moment n) : r.shifted t = [] := by
  match t with
  | 0 => rfl
  | 1 => exact Spi.Controller.due_of_idle about.idle
  | j + 2 =>
    have inside : j % s.period < s.period := Nat.mod_lt _ (by rw [Score.period]; omega)
    have split : j / s.period * s.period + j % s.period = j := Nat.div_add_mod' j s.period
    rcases about.shifted_eq (j / s.period) inside with ⟨plays, due⟩ | ⟨-, due⟩
    · rw [split] at due
      rw [due, if_neg]
      intro last
      refine apart _ plays ?_
      rw [Score.moment]
      omega
    · rw [split] at due
      exact due

/-- The converter holds a sample from the step that shifts its frame until another frame is shifted. -/
theorem chip_ticks (about : AboutToPlay s r) {n t : Nat} (plays : s.Plays n) (after : s.moment n ≤ t)
    (before : s.Plays (n + 1) → t < s.moment (n + 1)) :
    (Clocked.ticks t r).chip.dac = s.sample (n % s.count) &&& Ad5791.dataMask := by
  induction t with
  | zero =>
    rw [Score.moment] at after
    omega
  | succ t ih =>
    have fed : (Clocked.ticks (t + 1) r).chip =
        SerialDevice.feed (Clocked.ticks t r).chip (r.shifted (t + 1)) := by
      rw [Clocked.ticks_succ]
      exact chip_tick _
    rw [fed]
    by_cases now : t + 1 = s.moment n
    · rw [now, about.shifted_moment plays]
      exact congrArg Ad5791.Chip.dac (Ad5791.receive_writeFrame _ .dac _)
    · have nothing : r.shifted (t + 1) = [] := by
        refine about.shifted_of_ne_moment fun m other same => ?_
        rcases Nat.lt_trichotomy m n with earlier | rfl | later
        · have passed := s.moment_lt earlier
          omega
        · exact now same
        · have next : t + 1 < s.moment (n + 1) := before (other.of_le later)
          have order : s.moment (n + 1) ≤ s.moment m := s.moment_le later
          omega
      rw [nothing]
      exact ih (by omega) fun more => Nat.lt_of_succ_lt (before more)

theorem state_ticks (about : AboutToPlay s r) (t : Nat) :
    (Clocked.ticks (t + 1) r).player.state =
      if s.loops = false ∧ s.count * s.period ≤ t then .finished else .running := by
  have inside : t % s.period < s.period := Nat.mod_lt _ (by rw [Score.period]; omega)
  have split : t / s.period * s.period + t % s.period = t := Nat.div_add_mod' t s.period
  have turn : s.count * s.period ≤ t ↔ s.count ≤ t / s.period :=
    (Nat.le_div_iff_mul_le (by rw [Score.period]; omega)).symm
  have there := about.tick.ticks (t / s.period) inside
  rw [split] at there
  show (Clocked.ticks t r.tick).player.state = _
  rcases there with ⟨plays, ⟨stage, here⟩, -⟩ | ⟨never, ended⟩
  · rw [if_neg]
    · exact here.running
    · rintro ⟨once, past⟩
      rcases plays with again | within
      · cases once.symm.trans again
      · exact absurd within (Nat.not_lt.2 (turn.1 past))
  · rw [if_pos]
    · exact ended.finished
    · exact ⟨Bool.eq_false_iff.2 fun again => never (.inl again),
        turn.2 (Nat.le_of_not_lt fun within => never (.inr within))⟩

end AboutToPlay

/-! ## The replay -/

/-- A player that is ready, set to run and connected on both sides, in front of an idle controller that is
not armed, shifts just the frames of its samples in their order, the first in step `cycles + 5` and each
other one `spacing + cycles + 5` steps after the one before. Without a loop the player is finished from
`spacing + 1` steps after the last frame on, with the last sample in the converter; with a loop it never
is. -/
theorem samples_are_replayed {cycles : Nat} (reach : Reachable cycles r)
    (ready : r.player.state = .ready) (set : r.player.registers.value Player.run = 1)
    (free : r.player.registers.value Player.forceStop = 0) (idle : r.controller.transfer = .idle)
    (low : r.controller.armed = false) (ram : r.HasRam) (dac : r.HasDac) :
    r.score.cycles = cycles ∧
      (∀ n, r.score.Plays n →
        r.shifted (r.score.moment n) =
          [0x100000#32 ||| (r.score.sample (n % r.score.count) &&& 0xFFFFF#32)]) ∧
      (∀ t, (∀ n, r.score.Plays n → t ≠ r.score.moment n) → r.shifted t = []) ∧
      (∀ n t, r.score.Plays n → r.score.moment n ≤ t →
        (r.score.Plays (n + 1) → t < r.score.moment (n + 1)) →
        (Clocked.ticks t r).chip.dac = r.score.sample (n % r.score.count) &&& 0xFFFFF#32) ∧
      (r.score.loops = false → ∀ t, (Clocked.ticks t r).player.state = .finished ↔
        r.score.moment (r.score.count - 1) + r.score.spacing + 1 ≤ t) ∧
      (r.score.loops = true → ∀ t, (Clocked.ticks (t + 1) r).player.state = .running) := by
  have sound := reach.sound
  have delay : r.score.cycles = cycles := sound.controller.delay
  have may : r.player.MayRun := ⟨set, by rw [free]; decide⟩
  have about : AboutToPlay r.score r :=
    ⟨⟨delay.symm ▸ sound, ram, dac, may, rfl⟩, ready, idle, low⟩
  refine ⟨delay, fun n plays => about.shifted_moment plays, fun t => about.shifted_of_ne_moment,
    fun n t => about.chip_ticks, fun once t => ?_, fun again t => ?_⟩
  · have positive := r.score.count_pos
    obtain ⟨n, count⟩ : ∃ n, r.score.count = n + 1 := ⟨r.score.count - 1, by omega⟩
    have last : r.score.moment (r.score.count - 1) + r.score.spacing + 1 =
        r.score.count * r.score.period + 1 := by
      rw [count, Nat.succ_mul, Score.moment, Nat.add_sub_cancel, Score.period]
      omega
    rw [last]
    cases t with
    | zero =>
      refine iff_of_false (fun finished => ?_) (by omega)
      cases ready.symm.trans finished
    | succ t =>
      rw [about.state_ticks, Nat.add_le_add_iff_right]
      split
      · next past => exact iff_of_true rfl past.2
      · next inside => exact iff_of_false (by decide) fun past => inside ⟨once, past⟩
  · rw [about.state_ticks, if_neg]
    rintro ⟨once, -⟩
    cases again.symm.trans once

/-- Two samples, one tick apart from each other, over sessions of two ticks. -/
theorem two_samples_are_replayed :
    ∃ r : Rig, Reachable 2 r ∧ r.memory.words = #[5, 6] ∧ r.shifted 7 = [0x100005#32] ∧
      r.shifted 15 = [0x100006#32] ∧ (Clocked.ticks 17 r).player.state = .finished ∧
      ∀ t, t ≠ 7 → t ≠ 15 → r.shifted t = [] := by
  let atReset : Rig :=
    { player := .reset
      ram := .mk 0 (.reset #["player"] { words := #[5, 6] })
      dac := .mk 0 (.reset #["player"] (.reset .powerOn Ad5791.frameWidth 2)) }
  let r := atReset.run [.configure (.writeWord 12 2), .configure (.writeWord 16 1),
    .configure (.writeWord 0 1)]
  have reach : Reachable 2 r := (Reachable.reset 0 0 _ _ _ _).run _
  obtain ⟨-, frames, others, -, finished, -⟩ := samples_are_replayed reach (by decide +kernel)
    (by decide +kernel) (by decide +kernel) (by decide +kernel) (by decide +kernel)
    (by decide +kernel) (by decide +kernel)
  have score : r.score = { words := #[5, 6], width := 2, spacing := 1, loops := false, cycles := 2 } := by
    decide +kernel
  rw [score] at frames others finished
  refine ⟨r, reach, by decide +kernel, frames 0 (.inr (by decide)), frames 1 (.inr (by decide)),
    (finished rfl 17).2 (by decide), fun t first second => others t ?_⟩
  rintro n (again | within)
  · cases again
  · have two : n = 0 ∨ n = 1 := by
      have count : n < 2 := within
      omega
    rcases two with rfl | rfl
    · exact first
    · exact second

end Rig

end InstrumentBus.Waveform
