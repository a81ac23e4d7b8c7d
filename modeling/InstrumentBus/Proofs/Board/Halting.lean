import InstrumentBus.Proofs.Board.Openers
import InstrumentBus.Proofs.Board.Starting

/-!
# Stopping the player of a board

The driver clears `run` and makes at least one more access, and the board moves on in each, so that the
player is at a standstill afterwards whatever it was doing. From then on nobody but a processor opens a
session of the DAC (`stop_and_abort_silence_player`).
-/

namespace InstrumentBus.Board

open InstrumentBus.Action (Meets)
open Waveform (Player Rig)
open Waveform.Rig (Halted Holds)

variable {c : Config} {b : Board} {words : List Word} {master : Nat} {settings : List (Nat × Word)}

/-! ## Stopping -/

variable (c) (id ramMaster dacMaster : Nat)

/-- From any state the player is forced to stop, and is at a standstill before the force is taken away. -/
theorem meets_abort :
    Meets (Link.Live (On c (Holds words master)))
      (playerDriver c id ramMaster dacMaster).abort
      (fun _ => Link.Live (On c (Halted words master [(Player.forceStop, 0), (Player.doLoop, 0)])))
      fun _ _ => False := by
  have forceStop : Player.layout.fields[Player.forceStop]? = some ⟨"force_stop", 1, .readWrite⟩ := rfl
  have doLoop : Player.layout.fields[Player.doLoop]? = some ⟨"do_loop", 1, .readWrite⟩ := rfl
  apply Meets.locked_unfailing
  refine (meets_set (Q := Holds words master) (fun reach => reach.holds_player forceStop) rfl 1 rfl
    fun r _ holds => holds.tick.configure _).bind fun _ => ?_
  refine meets_clearRun.bind fun _ => ?_
  refine (meets_setting doLoop rfl (by decide) (by decide) List.not_mem_nil
    (fun r cleared => cleared.1.halts cleared.2) 0).bind fun _ => ?_
  exact meets_setting forceStop rfl (by decide) (by decide) (by decide) (fun r halted => halted.tick) 0

/-! ## After the stop -/

variable {c}

/-- Of the frames that the DAC took since it was `chip` none is one of a session that the player opened in
the meantime, and at most one is that of a session which was open before. -/
structure Traced.Foreign (chip : Ad5791.Chip) (t : Traced) : Prop where
  taken : t.board.dac = SerialDevice.feed chip (t.taken.map Prod.snd)
  others : ∀ frame ∈ t.taken, frame.1 ≠ .player
  once : (t.taken.map Prod.fst).count .earlier ≤ 1

/-- The player of the board is at a standstill, and stays so until `run` is written again. It makes no
transaction with its ports, whatever is behind them, and opens no session of the DAC. -/
structure Silenced (b : Board) : Prop where
  still : b.wf0.Still
  stays : ∀ events : List Event, (∀ e ∈ events, e.SparesRun) → (b.run events).wf0.Still
  passive : ∀ events : List Event, (∀ e ∈ events, e.SparesRun) →
    ∀ (ρ δ : Type) [Target ρ] [Target δ] (ram : ρ) (dac : δ),
      ((b.run events).wf0.tick ram dac).2 = (ram, dac)
  frames : ∀ events : List Event, (∀ e ∈ events, e.SparesRun) →
    Traced.Foreign b.dac ((Traced.start b).run events)

theorem Reachable.silenced (reach : Reachable c b) (still : b.wf0.Still) : Silenced b := by
  have silent {events : List Event} (spare : ∀ e ∈ events, e.SparesRun) :
      Traced.Silent c ((Traced.start b).run events) := (Traced.silent_start reach still).run spare
  have stays {events : List Event} (spare : ∀ e ∈ events, e.SparesRun) : (b.run events).wf0.Still := by
    have stays := (silent spare).still
    rwa [Traced.board_run] at stays
  refine ⟨still, fun _ spare => stays spare, fun _ spare ρ δ _ _ ram dac => ?_, fun events spare => ?_⟩
  · rw [(stays spare).tick_eq]
  · have start : Traced.Follows c b.dac (Traced.start b) := ⟨reach, rfl⟩
    exact ⟨(start.run events).taken, (silent spare).taken, Nat.le_of_add_right_le (silent spare).earlier⟩

/-- What a stop leaves of a board that meets no condition but that its player can be reached. -/
theorem halts_from (reach : Reachable c b) {a : Action (Link View) Unit}
    (halts : Meets (Link.Live (On c (Holds b.rig.memory.words.toList (b.owner .dac0)))) a
      (fun _ => Link.Live (On c (Halted b.rig.memory.words.toList (b.owner .dac0) settings)))
      fun _ _ => False) :
    ∃ after : Board, a.perform (.connect (.mk .supervisor b)) = (.ok (), .connect (.mk .supervisor after)) ∧
      Silenced after ∧ ∀ i v, (i, v) ∈ settings → after.wf0.registers.value i = v := by
  have start : On c (Holds b.rig.memory.words.toList (b.owner .dac0)) (.mk .supervisor b) :=
    ⟨rfl, reach, rfl, rfl⟩
  obtain ⟨⟨⟩, ⟨health, side, after⟩, performed, alive, on⟩ := halts.succeeds (Link.live_connect start)
  obtain rfl : health = .live := alive
  obtain rfl : side = .supervisor := on.side
  exact ⟨after, performed, on.reach.silenced on.holds.still, fun i v listed => (on.holds.set i v listed).2⟩

/-- Whatever the player is doing, `stop` and `abort` succeed and clear `run` and `do_loop`, and `abort` takes
the force away again. The player is at a standstill then and stays silent for as long as `run` is not
written. -/
theorem stop_and_abort_silence_player (reach : Reachable c b) (id ramMaster dacMaster : Nat) :
    ∃ d, WaveformDriver.ofManifest id (b.manifest .supervisor) "wf0" ramMaster dacMaster = .ok d ∧
      ∀ limit, 0 < limit →
        (∃ after : Board, (d.withPollLimit limit).stop.perform (.connect (View.mk .supervisor b)) =
            (.ok (), .connect (View.mk .supervisor after)) ∧
          Silenced after ∧ after.wf0.registers.value Player.doLoop = 0) ∧
        (∃ after : Board, (d.withPollLimit limit).abort.perform (.connect (View.mk .supervisor b)) =
            (.ok (), .connect (View.mk .supervisor after)) ∧
          Silenced after ∧ after.wf0.registers.value Player.doLoop = 0 ∧
          after.wf0.registers.value Player.forceStop = 0) := by
  refine ⟨_, reach.ofManifest_player id ramMaster dacMaster, fun limit polls => ⟨?_, ?_⟩⟩
  · obtain ⟨after, performed, silenced, set⟩ :=
      halts_from reach ((meets_halt c id ramMaster dacMaster limit).of_no_error fun _ _ none =>
        Nat.ne_of_gt polls none).locked_unfailing
    exact ⟨after, performed, silenced, set _ _ (.head _)⟩
  · obtain ⟨after, performed, silenced, set⟩ := halts_from reach (meets_abort c id ramMaster dacMaster)
    exact ⟨after, performed, silenced, set _ _ (.tail _ (.head _)), set _ _ (.head _)⟩

/-- A small board on which the player shifts the frame of its first sample. -/
def playing : Board :=
  (small 4).run [.access .supervisor (.writeWord 0x2200 2), .access .supervisor (.writeWord 0x2208 1),
    .access .supervisor (.writeWord 0x300C 1), .access .supervisor (.writeWord 0x3000 1), .tick, .tick,
    .tick, .tick]

/-- The player is stopped in the middle of a frame, and one poll is enough. It is ready for the next twenty
steps of the board, in which the DAC takes no other frame of it. -/
theorem stopped_amid_frame : Reachable (.small 4) playing ∧ playing.wf0.state = .running ∧
    playing.dac0.device.leftOver.length = 1 ∧
    ∃ d, WaveformDriver.ofManifest 0 (playing.manifest .supervisor) "wf0" ramPlayerMaster dacPlayerMaster =
        .ok d ∧
      ∃ after : Board, (d.withPollLimit 1).stop.perform (.connect (View.mk .supervisor playing)) =
          (.ok (), .connect (View.mk .supervisor after)) ∧
        (after.run (List.replicate 20 .tick)).wf0.state = .ready ∧
        Traced.Foreign after.dac ((Traced.start after).run (List.replicate 20 .tick)) := by
  have reach : Reachable (.small 4) playing := .run (.assembled (assemble_small 4)) _
  obtain ⟨d, found, silences⟩ :=
    stop_and_abort_silence_player reach 0 ramPlayerMaster dacPlayerMaster
  obtain ⟨⟨after, performed, silenced, -⟩, -⟩ := silences 1 Nat.one_pos
  have spare : ∀ e ∈ List.replicate 20 Event.tick, e.SparesRun := by
    intro e listed
    rw [List.eq_of_mem_replicate listed]
    trivial
  exact ⟨reach, by decide +kernel, by decide +kernel, d, found, after, performed,
    (silenced.stays _ spare).ready, silenced.frames _ spare⟩

end InstrumentBus.Board
