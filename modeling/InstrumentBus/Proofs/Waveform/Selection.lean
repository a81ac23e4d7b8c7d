import InstrumentBus.Proofs.Ad5791.Frame
import InstrumentBus.Proofs.Waveform.Rig

/-!
# Playing while the connections change

The connections of a player may be moved at any time. Without its converter the player arms nothing and
stands still where it waits for the controller, but it does not look at its connections: it goes past the
copying of a sample, counts its pause and moves its cursor all the same, and what it hears of a RAM that
is not connected to it is zero. `sourceAfter` follows which word the frame in the controller was made of,
over every run (`frame_sourceAfter`), and `selection_decides_progress` puts the two together.
-/

namespace InstrumentBus

namespace Waveform.Rig

variable {r : Rig} {cycles : Nat}

/-! ## Without the converter -/

/-- Just the two waits for the controller hold a playing player back. -/
theorem Sound.player_move_eq_iff (sound : r.Sound cycles) (plays : r.Plays) :
    r.move.player = r.player ↔
      (r.player.phase = .transfer ∧ ¬(r.HasDac ∧ r.controller.transfer = .idle)) ∨
      (r.player.phase = .awaitFrame ∧ ¬(r.HasDac ∧ r.controller.transfer = .done)) := by
  obtain ⟨running, may⟩ := plays
  have moves {p : Player} (other : p.phase ≠ r.player.phase) : p ≠ r.player :=
    fun same => other (congrArg Player.phase same)
  cases phase : r.player.phase with
  | load =>
    rw [move_of_load running may phase]
    refine iff_of_false (moves ?_) (by simp)
    rw [phase]
    exact Phase.noConfusion
  | transfer =>
    have waits : r.move.player = r.player ↔ ¬(r.HasDac ∧ r.controller.transfer = .idle) := by
      rw [sound.move_of_transfer running may phase]
      split
      · next opens =>
        refine iff_of_false (moves ?_) (not_not_intro opens)
        rw [phase]
        exact Phase.noConfusion
      · next closed => exact iff_of_true rfl closed
    rw [waits]
    simp
  | awaitFrame =>
    have waits : r.move.player = r.player ↔ ¬(r.HasDac ∧ r.controller.transfer = .done) := by
      rw [sound.move_of_awaitFrame running may phase]
      split
      · next complete =>
        refine iff_of_false (moves ?_) (not_not_intro complete)
        rw [phase]
        exact Phase.noConfusion
      · next open_ => exact iff_of_true rfl open_
    rw [waits]
    simp
  | wait elapsed =>
    rw [move_of_wait running may phase]
    refine iff_of_false ?_ (by simp)
    split
    · refine moves ?_
      rw [phase]
      intro same
      injection same with same
      omega
    · refine moves ?_
      rw [phase, Player.phase_advance]
      exact Phase.noConfusion

/-- The player raises `arm` only where it is connected and has a frame to transfer. -/
theorem Sound.armed_move (sound : r.Sound cycles) (low : r.controller.armed = false)
    (raised : r.move.controller.armed = true) :
    r.Plays ∧ r.player.phase = .transfer ∧ r.HasDac ∧ r.controller.transfer = .idle := by
  rcases sound.controller_move with ⟨-, left⟩ | ⟨plays, phase, connected, idle, -⟩ | ⟨-, -, left⟩ |
    ⟨-, left⟩
  · rw [left, sound.controller.armed_put_toSlave, low] at raised
    cases raised
  · exact ⟨plays, phase, connected, idle⟩
  · rw [left, sound.controller.armed_put_arm] at raised
    cases raised
  · rw [left, low] at raised
    cases raised

/-! ## Where a frame comes from -/

/-- The player touches the frame in the controller only where it copies a sample. -/
theorem Sound.frame_move (sound : r.Sound cycles) :
    r.move.controller.frame =
      if r.Loads then Player.sampleFrame r.heard else r.controller.frame := by
  rcases sound.controller_move with ⟨loads, left⟩ | ⟨-, phase, -, -, left⟩ | ⟨other, -, left⟩ |
    ⟨other, left⟩
  · rw [if_pos loads, left, sound.controller.frame_put_toSlave]
    exact Ad5791.writeFrame_and_frameMask .dac r.heard
  · rw [if_neg fun loads => Phase.noConfusion (phase.symm.trans loads.2.1), left,
      sound.controller.frame_put_arm]
  · rw [if_neg other, left, sound.controller.frame_put_arm]
  · rw [if_neg other, left]

/-- The word that the frame in the controller was made of after an event, if the player put the frame
there and no other master wrote over it. -/
def source (r : Rig) (known : Option Word) : Event → Option Word
  | .tick => if r.Loads then some r.heard else known
  | .dac master (.write addr _ _) =>
    if master = r.dac.switch.active ∧ addr = Layout.offset Spi.Controller.toSlave then none else known
  | _ => known

/-- The word that the frame in the controller was made of after several events. -/
def sourceAfter (r : Rig) (known : Option Word) : List Event → Option Word
  | [] => known
  | e :: rest => (r.step e).sourceAfter (r.source known e) rest

theorem Sound.frame_step (sound : r.Sound cycles) {known : Option Word} {w : Word} (e : Event)
    (before : known = some w → r.controller.frame = Player.sampleFrame w)
    (after : r.source known e = some w) : (r.step e).controller.frame = Player.sampleFrame w := by
  cases e with
  | tick =>
    have ticked : r.tick.controller.frame =
        if r.Loads then Player.sampleFrame r.heard else r.controller.frame := by
      rw [← Spi.Controller.frame_tick r.controller]
      exact sound.clock.frame_move
    rw [source] at after
    show r.tick.controller.frame = _
    rw [ticked]
    split at after
    · next loads =>
      cases after
      rw [if_pos loads]
    · next other =>
      rw [if_neg other]
      exact before after
  | configure req => exact before after
  | ram master req => exact before after
  | dac master req =>
    by_cases covers : master = r.dac.switch.active ∧
        ∃ data lanes, req = .write (Layout.offset Spi.Controller.toSlave) data lanes
    · -- a write over the frame leaves no known source
      obtain ⟨connected, data, lanes, rfl⟩ := covers
      rw [source, if_pos ⟨connected, rfl⟩] at after
      cases after
    · have kept : known = some w := by
        cases req with
        | read addr => exact after
        | write addr data lanes =>
          rwa [source, if_neg] at after
          rintro ⟨connected, rfl⟩
          exact covers ⟨connected, data, lanes, rfl⟩
      have frame : (r.step (.dac master req)).controller.frame = r.controller.frame := by
        show (r.dac.switch.transact master req).2.device.frame = _
        by_cases connected : master = r.dac.switch.active
        · rw [connected, BusSwitch.transact_of_active]
          exact r.controller.frame_transact fun data lanes same =>
            covers ⟨connected, data, lanes, same⟩
        · rw [BusSwitch.transact_of_ne_active connected]
          rfl
      rw [frame]
      exact before kept
  | selectRam req => exact before after
  | selectDac req =>
    have same : (r.step (.selectDac req)).controller = r.controller :=
      BusSwitch.device_transactControl r.dac.switch req
    rw [same]
    exact before after

/-- Along every run, a frame whose source is known is the frame of that word. -/
theorem Sound.frame_sourceAfter (sound : r.Sound cycles) {known : Option Word} {w : Word}
    (events : List Event) (before : ∀ v, known = some v → r.controller.frame = Player.sampleFrame v)
    (after : r.sourceAfter known events = some w) :
    (r.run events).controller.frame = Player.sampleFrame w := by
  induction events generalizing r known with
  | nil => exact before w after
  | cons e rest ih => exact ih (sound.step e) (fun v => sound.frame_step e (before v)) after

theorem sourceAfter_append (r : Rig) (known : Option Word) (events : List Event) (e : Event) :
    r.sourceAfter known (events ++ [e]) = (r.run events).source (r.sourceAfter known events) e := by
  induction events generalizing r known with
  | nil => rfl
  | cons e' rest ih => exact ih (r.step e') (r.source known e')

/-! ## Along every run -/

/-- However the connections change: a playing player stands still just where it waits for the controller
and either is not connected to it or does not find what it waits for; it arms a frame only while it is
connected to the converter, and does nothing to the controller while it is not; and a frame that it put
into the controller, and that no other master wrote over, is the frame of the word that it heard when it
put the frame there: the word of the RAM at its cursor if the RAM was connected to it in that step, and
zero if not. -/
theorem selection_decides_progress {r₀ : Rig} (reach : Reachable cycles r₀) (events : List Event) :
    ((r₀.run events).Plays → ((r₀.run events).tick.player = (r₀.run events).player ↔
      ((r₀.run events).player.phase = .transfer ∧
        ¬((r₀.run events).HasDac ∧ (r₀.run events).controller.tick.transfer = .idle)) ∨
      ((r₀.run events).player.phase = .awaitFrame ∧
        ¬((r₀.run events).HasDac ∧ (r₀.run events).controller.tick.transfer = .done)))) ∧
    ((r₀.run events).controller.armed = false → (r₀.run events).tick.controller.armed = true →
      (r₀.run events).Plays ∧ (r₀.run events).player.phase = .transfer ∧ (r₀.run events).HasDac) ∧
    (¬(r₀.run events).HasDac → (r₀.run events).tick.controller = (r₀.run events).controller.tick) ∧
    ((r₀.run events).Loads → r₀.sourceAfter none (events ++ [.tick]) =
      some (if (r₀.run events).HasRam then
        (r₀.run events).memory.words[
          ((r₀.run events).player.registers.value Player.cursor).toNat]?.getD 0 else 0)) ∧
    ∀ w, r₀.sourceAfter none events = some w →
      (r₀.run events).controller.due = [] ∨
        (r₀.run events).controller.due = [0x100000#32 ||| (w &&& 0xFFFFF#32)] := by
  have sound := (reach.run events).sound
  refine ⟨sound.clock.player_move_eq_iff, fun low raised => ?_, controller_tick_of_apart, fun loads => ?_,
    fun w known => ?_⟩
  · have still : (r₀.run events).clock.controller.armed = false :=
      (Spi.Controller.armed_tick _).trans low
    obtain ⟨plays, phase, connected, -⟩ := sound.clock.armed_move still raised
    exact ⟨plays, phase, connected⟩
  · rw [sourceAfter_append, source, if_pos loads, sound.heard_eq]
  · have frame := reach.sound.frame_sourceAfter events (fun v none => by cases none) known
    rcases Spi.Controller.due_cases (r₀.run events).controller with none | one
    · exact .inl none
    · right
      rw [one, frame]
      rfl

/-- A sample that was copied while both were connected goes out, although both are taken away at once and
the converter only comes back later. -/
theorem copied_sample_goes_out :
    ∃ r : Rig, Reachable 1 r ∧ r.memory.words = #[5] ∧ r.Loads ∧ r.HasRam ∧
      ∃ events, (.selectRam (.writeWord 0 1)) ∈ events ∧ (.selectDac (.writeWord 0 1)) ∈ events ∧
        (r.run (.tick :: events)).controller.due = [0x100005#32] := by
  let atReset := (Bench.reset [5] 1).rig
  let start : List Event := [.configure (.writeWord 0 1), .tick]
  let events : List Event :=
    [.selectRam (.writeWord 0 1), .selectDac (.writeWord 0 1), .tick, .selectDac (.writeWord 0 0),
      .tick, .tick, .tick]
  have reach : Reachable 1 atReset := .reset 0 0 _ _ _ _
  obtain ⟨-, -, -, -, frames⟩ := selection_decides_progress reach (start ++ .tick :: events)
  have source : atReset.sourceAfter none (start ++ .tick :: events) = some 5#32 := by decide +kernel
  have shifts : (atReset.run (start ++ .tick :: events)).controller.due ≠ [] := by decide +kernel
  have word : 0x100000#32 ||| (5#32 &&& 0xFFFFF#32) = 0x100005#32 := by decide
  have due := (frames 5#32 source).resolve_left shifts
  rw [word, run, List.foldl_append] at due
  exact ⟨atReset.run start, reach.run start, by decide +kernel, by decide +kernel,
    by decide +kernel, events, by decide, by decide, due⟩

/-- A player whose RAM was taken away goes on without it, and shifts the frame of a zero in the stead of
its only sample; a player whose converter was taken away goes on without having copied its sample. -/
theorem disconnected_player_goes_on :
    (∃ r : Rig, Reachable 1 r ∧ r.memory.words = #[5] ∧ r.Plays ∧ ¬r.HasRam ∧
      r.tick.player.phase ≠ r.player.phase ∧ r.shifted 5 = [0x100000#32]) ∧
    ∃ r : Rig, Reachable 1 r ∧ r.memory.words = #[5] ∧ r.Plays ∧ ¬r.HasDac ∧
      r.tick.player.phase ≠ r.player.phase := by
  let atReset := (Bench.reset [5] 1).rig
  have reach : Reachable 1 atReset := .reset 0 0 _ _ _ _
  exact ⟨⟨atReset.run [.configure (.writeWord 0 1), .tick, .selectRam (.writeWord 0 1)], reach.run _,
      by decide +kernel, by decide +kernel, by decide +kernel, by decide +kernel, by decide +kernel⟩,
    ⟨atReset.run [.configure (.writeWord 0 1), .tick, .selectDac (.writeWord 0 1)], reach.run _,
      by decide +kernel, by decide +kernel, by decide +kernel, by decide +kernel⟩⟩

end Waveform.Rig

end InstrumentBus
