import InstrumentBus.Proofs.Board.Halting
import InstrumentBus.Proofs.Waveform.Conduct

/-!
# Asking the player of a board what it does

The driver makes out the state of the player from two flags. It reads `finished` first and
`finished_or_ready` after that, and the board moves on one step before each. A player that ends its last
sample between the two shows the first flag too late and the second one early, and the driver takes it for
ready (`status_is_met_unless_expired`).
-/

namespace InstrumentBus.Board

open Waveform (Player State)

variable {c : Config} {b : Board} {i : Nat} {f : Field}

/-- The player of the board is in the state `s` before or after one of the next `steps` steps. -/
def Visits (b : Board) (steps : Nat) (s : State) : Prop :=
  ∃ n ≤ steps, (Clocked.ticks n b).wf0.state = s

theorem ticks_two (b : Board) : Clocked.ticks 2 b = b.tick.tick := by
  rw [Clocked.ticks, Clocked.ticks, Clocked.ticks]
  rfl

/-! ## The two flags -/

theorem Reachable.reads_setting (reach : Reachable c b) (found : Player.layout.fields[i]? = some f) (w : Word) :
    ((refOf playerRegion i f).reads w).perform (View.mk .supervisor b) =
      (.ok (b.tick.wf0.registers.value i == w), View.mk .supervisor b.tick) := by
  have sound : b.tick.wf0.Sound := (Reachable.rig (.step .tick reach)).1.player
  have read := reach.get_setting found
  rw [sound.fits.value_and_widthMask found] at read
  exact Action.perform_bind_of_ok read _

theorem Reachable.reads_finished (reach : Reachable c b) :
    ((refOf playerRegion Player.finished ⟨"finished", 1, .readOnly⟩).reads 1).perform (View.mk .supervisor b) =
      (.ok (decide (b.tick.wf0.state = .finished)), View.mk .supervisor b.tick) := by
  have sound : b.tick.wf0.Sound := (Reachable.rig (.step .tick reach)).1.player
  rw [reach.reads_setting rfl, beq_eq_decide, decide_eq_decide.2 sound.finished_iff]

theorem Reachable.reads_finishedOrReady (reach : Reachable c b) :
    ((refOf playerRegion Player.finishedOrReady ⟨"finished_or_ready", 1, .readOnly⟩).reads 1).perform
        (View.mk .supervisor b) =
      (.ok (decide (b.tick.wf0.state ≠ .running)), View.mk .supervisor b.tick) := by
  have sound : b.tick.wf0.Sound := (Reachable.rig (.step .tick reach)).1.player
  rw [reach.reads_setting rfl, beq_eq_decide, decide_eq_decide.2 sound.finishedOrReady_iff]

/-- What the driver makes of the flags: it asks for the end first, and after that whether the player rests. -/
theorem Reachable.perform_status (reach : Reachable c b) (id ramMaster dacMaster : Nat) :
    (playerDriver c id ramMaster dacMaster).status.perform (.connect (View.mk .supervisor b)) =
      if b.tick.wf0.state = .finished then (.ok .finished, .connect (View.mk .supervisor b.tick))
      else (.ok (if b.tick.tick.wf0.state = .running then .running else .ready),
        .connect (View.mk .supervisor b.tick.tick)) := by
  have later : Reachable c b.tick := .step .tick reach
  unfold WaveformDriver.status
  rw [Link.perform_locked]
  refine (congrArg _ (Action.perform_bind_of_ok reach.reads_finished _)).trans ?_
  by_cases done : b.tick.wf0.state = .finished
  · rw [if_pos done, decide_eq_true done]
    rfl
  · rw [if_neg done, decide_eq_false done]
    refine (congrArg _ (Action.perform_bind_of_ok later.reads_finishedOrReady _)).trans ?_
    by_cases runs : b.tick.tick.wf0.state = .running
    · rw [if_pos runs, decide_eq_false (not_not_intro runs)]
      rfl
    · rw [if_neg runs, decide_eq_true runs]
      rfl

/-! ## The state that is told -/

variable (id ramMaster dacMaster : Nat)

/-- A player that expires between the two reads passes for a ready one. -/
theorem Reachable.perform_status_of_expires (reach : Reachable c b) (expires : b.tick.wf0.Expires) :
    (playerDriver c id ramMaster dacMaster).status.perform (.connect (View.mk .supervisor b)) =
        (.ok .ready, .connect (View.mk .supervisor (Clocked.ticks 2 b))) ∧
      b.wf0.state = .running ∧ b.tick.wf0.state = .running ∧ b.tick.tick.wf0.state = .finished := by
  have fresh : b.tick.wf0.state ≠ .finished := by
    rw [expires.running]
    decide
  have finished : b.tick.tick.wf0.state = .finished := (b.tick.wf0.finished_tick_iff _ _ fresh).2 expires
  have performed := reach.perform_status id ramMaster dacMaster
  rw [if_neg fresh, finished, if_neg (by decide), ← ticks_two] at performed
  exact ⟨performed, expires.ran, expires.running, finished⟩

theorem not_visits_ready (ran : b.wf0.state = .running) (running : b.tick.wf0.state = .running)
    (finished : b.tick.tick.wf0.state = .finished) : ¬b.Visits 2 .ready := by
  rintro ⟨n, few, visited⟩
  match n, few, visited with
  | 0, _, visited => exact absurd (ran.symm.trans visited) (by decide)
  | 1, _, visited => exact absurd (running.symm.trans visited) (by decide)
  | 2, _, visited =>
    rw [ticks_two, finished] at visited
    cases visited

/-- In every other case the driver tells the state of the player after the last step of the call. -/
theorem Reachable.perform_status_of_not_expires (reach : Reachable c b) (goesOn : ¬b.tick.wf0.Expires) :
    ∃ steps, (playerDriver c id ramMaster dacMaster).status.perform (.connect (View.mk .supervisor b)) =
      (.ok (Clocked.ticks steps b).wf0.state, .connect (View.mk .supervisor (Clocked.ticks steps b))) := by
  have performed := reach.perform_status id ramMaster dacMaster
  by_cases done : b.tick.wf0.state = .finished
  · rw [if_pos done, ← done] at performed
    exact ⟨1, performed⟩
  · have open_ : b.tick.tick.wf0.state ≠ .finished :=
      fun finished => goesOn ((b.tick.wf0.finished_tick_iff _ _ done).1 finished)
    have told : (if b.tick.tick.wf0.state = .running then State.running else .ready) =
        b.tick.tick.wf0.state := by
      cases state : b.tick.tick.wf0.state with
      | ready => rfl
      | running => rfl
      | finished => exact absurd state open_
    rw [if_neg done, told, ← ticks_two] at performed
    exact ⟨2, performed⟩

/-- The driver tells a state in which the player was at some moment of the call, unless the player expires
between the two reads. Then it is told to be ready, while it goes from running to finished. -/
theorem status_is_met_unless_expired (reach : Reachable c b) :
    ∃ d, WaveformDriver.ofManifest id (b.manifest .supervisor) "wf0" ramMaster dacMaster = .ok d ∧
      ∃ told steps, d.status.perform (.connect (View.mk .supervisor b)) =
          (.ok told, .connect (View.mk .supervisor (Clocked.ticks steps b))) ∧
        (b.Visits steps told ↔ ¬b.tick.wf0.Expires) ∧
        (b.tick.wf0.Expires → told = .ready ∧ steps = 2 ∧ b.wf0.state = .running ∧
          b.tick.wf0.state = .running ∧ b.tick.tick.wf0.state = .finished) := by
  refine ⟨_, reach.ofManifest_player id ramMaster dacMaster, ?_⟩
  by_cases expires : b.tick.wf0.Expires
  · obtain ⟨performed, ran, running, finished⟩ :=
      reach.perform_status_of_expires id ramMaster dacMaster expires
    have missed : ¬b.Visits 2 .ready := not_visits_ready ran running finished
    exact ⟨.ready, 2, performed, iff_of_false missed (not_not_intro expires),
      fun _ => ⟨rfl, rfl, ran, running, finished⟩⟩
  · obtain ⟨steps, performed⟩ := reach.perform_status_of_not_expires id ramMaster dacMaster expires
    exact ⟨_, steps, performed, iff_of_true ⟨steps, Nat.le_refl steps, rfl⟩ expires,
      fun expired => absurd expired expires⟩

/-- A frame of the player is on its way before and after the call, and the driver says that the player runs. -/
theorem running_player_is_met : Reachable (.small 4) playing ∧ ¬playing.tick.wf0.Expires ∧
    ∃ d, WaveformDriver.ofManifest 0 (playing.manifest .supervisor) "wf0" ramPlayerMaster dacPlayerMaster =
        .ok d ∧
      ∃ told steps, d.status.perform (.connect (View.mk .supervisor playing)) =
          (.ok told, .connect (View.mk .supervisor (Clocked.ticks steps playing))) ∧
        playing.Visits steps told := by
  have reach : Reachable (.small 4) playing := .run (.assembled (assemble_small 4)) _
  have goesOn : ¬playing.tick.wf0.Expires := by
    intro expires
    obtain ⟨elapsed, phase, -⟩ := expires.waited
    have shifting : playing.tick.wf0.phase = .awaitFrame := by decide +kernel
    rw [shifting] at phase
    cases phase
  obtain ⟨d, found, told, steps, performed, met, -⟩ :=
    status_is_met_unless_expired 0 ramPlayerMaster dacPlayerMaster reach
  exact ⟨reach, goesOn, d, found, told, steps, performed, met.2 goesOn⟩

/-- The same board at the end of the frame, which is that of the last sample. -/
def expiring : Board :=
  playing.run (List.replicate 4 .tick)

/-- The player goes from running to finished during the call, and the driver says that it is ready. -/
theorem expiring_player_is_told_ready : Reachable (.small 4) expiring ∧
    ∃ d, WaveformDriver.ofManifest 0 (expiring.manifest .supervisor) "wf0" ramPlayerMaster dacPlayerMaster =
        .ok d ∧
      d.status.perform (.connect (View.mk .supervisor expiring)) =
        (.ok .ready, .connect (View.mk .supervisor (Clocked.ticks 2 expiring))) ∧
      expiring.wf0.state = .running ∧ expiring.tick.wf0.state = .running ∧
      expiring.tick.tick.wf0.state = .finished ∧ ¬expiring.Visits 2 .ready := by
  have reach : Reachable (.small 4) expiring := .run (.run (.assembled (assemble_small 4)) _) _
  have expires : expiring.tick.wf0.Expires := {
    running := by decide +kernel
    may := by decide +kernel
    waited := ⟨0, by decide +kernel, by decide +kernel⟩
    last := by decide +kernel
    single := by decide +kernel }
  obtain ⟨performed, ran, running, finished⟩ :=
    reach.perform_status_of_expires 0 ramPlayerMaster dacPlayerMaster expires
  exact ⟨reach, _, reach.ofManifest_player _ _ _, performed, ran, running, finished,
    not_visits_ready ran running finished⟩

end InstrumentBus.Board
