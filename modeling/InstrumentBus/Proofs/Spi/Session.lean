import InstrumentBus.Proofs.Spi.History
import InstrumentBus.Spi.DelayLine

/-!
# The reported session

What a controller reports of its session is read off its transfer and its `arm` bit. The session is meant to go
round in one direction, from idle to armed, to finished and back to idle (`Session.Moves`). It leaves that round in
two places only: when a transaction lowers `arm` before the frame is complete, which reports an idle session also
while the frame is being shifted, and when that frame is completed, which reports a finished session right after an
idle one. So a session goes round as it should along a history exactly if `arm` is not lowered early
(`reported_session_goes_round_iff`).
-/

namespace InstrumentBus.Spi

/-- The round of a session. -/
inductive Session.Moves : Session → Session → Prop
  | arm : Moves .idle .armed
  | complete : Moves .armed .finished
  | disarm : Moves .finished .idle

namespace Controller

open Input (after)

variable {δ : Type} {frameWidth cycles : Nat} {c : Controller δ}

/-! ## What is reported -/

theorem session_eq_finished_iff : c.session = .finished ↔ c.transfer = .done := by
  unfold session
  cases c.transfer <;> cases c.armed <;> simp

theorem session_eq_armed_iff : c.session = .armed ↔ c.transfer ≠ .done ∧ c.armed = true := by
  unfold session
  cases c.transfer <;> cases c.armed <;> simp

theorem session_eq_idle_iff : c.session = .idle ↔ c.transfer ≠ .done ∧ c.armed = false := by
  unfold session
  cases c.transfer <;> cases c.armed <;> simp

/-- Before the frame of a session is complete, only `arm` is reported. -/
theorem session_of_incomplete (incomplete : c.transfer ≠ .done) :
    c.session = if c.armed then .armed else .idle := by
  cases armed : c.armed with
  | false => exact session_eq_idle_iff.2 ⟨incomplete, armed⟩
  | true => exact session_eq_armed_iff.2 ⟨incomplete, armed⟩

/-- A frame is being shifted: its session is open and the frame is not complete. -/
def Shifting (c : Controller δ) : Prop :=
  c.registers.value readyToArm = 0 ∧ c.registers.value finished = 0

theorem Sound.shifting_iff (sound : c.Sound frameWidth cycles) :
    c.Shifting ↔ ∃ left, c.transfer = .busy left := by
  rw [Shifting, sound.not_ready_iff, sound.not_finished_iff]
  cases c.transfer <;> simp

theorem Sound.not_finished_of_shifting (sound : c.Sound frameWidth cycles) (shifting : c.Shifting) :
    c.session ≠ .finished := by
  rw [ne_eq, session_eq_finished_iff]
  exact sound.not_finished_iff.1 shifting.2

/-- A transaction lowers `arm`. -/
def Lowers (c : Controller δ) (req : Request) : Prop :=
  c.armed = true ∧ (c.transact req).2.armed = false

/-! ## One step -/

section Step

variable [SerialDevice δ]

/-- A session stays where it is, or moves on in its round. -/
def GoesRound (c : Controller δ) (i : Input Unit) : Prop :=
  (Input.step c i).session = c.session ∨ Session.Moves c.session (Input.step c i).session

/-- A transaction keeps a session in its round unless it lowers `arm` before the frame is complete. -/
theorem goesRound_bus_iff (req : Request) :
    c.GoesRound (.bus req) ↔ (c.session ≠ .finished → ¬c.Lowers req) := by
  have kept : (Input.step c (.bus req : Input Unit)).transfer = c.transfer := rfl
  by_cases done : c.transfer = .done
  · have before := session_eq_finished_iff.2 done
    have after := session_eq_finished_iff.2 (kept.trans done)
    exact iff_of_true (.inl (after.trans before.symm)) fun incomplete => absurd before incomplete
  · have before := session_of_incomplete done
    have after : (Input.step c (.bus req : Input Unit)).session = if (c.transact req).2.armed then .armed else .idle :=
      session_of_incomplete (kept ▸ done)
    have incomplete : c.session ≠ .finished := fun finished => done (session_eq_finished_iff.1 finished)
    rw [GoesRound, after, forall_prop_of_true incomplete, Lowers, before]
    cases c.armed <;> cases (c.transact req).2.armed
    · exact iff_of_true (.inl rfl) (by simp)
    · exact iff_of_true (.inr .arm) (by simp)
    · refine iff_of_false ?_ (by simp)
      rintro (stays | moves)
      · cases stays
      · cases moves
    · exact iff_of_true (.inl rfl) (by simp)

/-- A step that does not complete a frame keeps the session in its round. -/
theorem Sound.goesRound_tick_of_not_completes (sound : c.Sound frameWidth cycles) (other : ¬c.Completes) :
    c.GoesRound .tick := by
  rw [sound.completes_iff] at other
  by_cases done : c.transfer = .done
  · have before := session_eq_finished_iff.2 done
    cases armed : c.armed with
    | false =>
      have idle : c.tick.transfer = .idle := by
        rw [transfer_tick, done, armed]
        rfl
      have after : c.tick.session = .idle := by
        rw [session_eq_idle_iff, idle, armed_tick]
        exact ⟨nofun, armed⟩
      refine .inr ?_
      rw [before]
      exact after ▸ .disarm
    | true => exact .inl (congrArg session (tick_of_done done armed))
  · have incomplete : c.tick.transfer ≠ .done := by
      rw [transfer_tick, ne_eq, Transfer.next_eq_done_iff]
      rintro (last | ⟨finished, -⟩)
      · exact other last
      · exact done finished
    refine .inl ((session_of_incomplete incomplete).trans ?_)
    rw [armed_tick, session_of_incomplete done]

/-- A step keeps a session in its round unless it completes a frame while `arm` is low. -/
theorem Sound.goesRound_tick_iff (sound : c.Sound frameWidth cycles) :
    c.GoesRound .tick ↔ (c.Completes → c.armed = true) := by
  by_cases completes : c.Completes
  · have last := sound.completes_iff.1 completes
    have before : c.session = if c.armed then .armed else .idle :=
      session_of_incomplete (last ▸ nofun)
    have after : (Input.step c .tick).session = .finished := by
      refine session_eq_finished_iff.2 ((transfer_tick c).trans ?_)
      exact Transfer.next_eq_done_iff.2 (.inl last)
    rw [GoesRound, after, before, forall_prop_of_true completes]
    cases c.armed
    · refine iff_of_false ?_ (by simp)
      rintro (stays | moves)
      · cases stays
      · cases moves
    · exact iff_of_true (.inr .complete) rfl
  · exact iff_of_true (sound.goesRound_tick_of_not_completes completes) fun made => absurd made completes

/-- Only the step that completes a frame makes a session finished. -/
theorem Sound.entered (sound : c.Sound frameWidth cycles) {i : Input Unit} (before : c.session ≠ .finished)
    (after : (Input.step c i).session = .finished) : i = .tick ∧ c.Completes := by
  rw [ne_eq, session_eq_finished_iff] at before
  rw [session_eq_finished_iff] at after
  cases i with
  | bus req => exact absurd after before
  | move _ =>
    refine ⟨rfl, sound.completes_iff.2 ?_⟩
    refine (Transfer.next_eq_done_iff.1 ((transfer_tick c).symm.trans after)).resolve_right ?_
    exact fun released => before released.1

end Step

/-! ## Along every history -/

section Histories

variable [SerialDevice δ] {inputs : List (Input Unit)}

/-- No transaction of a history lowers `arm` in a controller of this kind. -/
def NeverLowers (kind : Controller δ → Prop) (c : Controller δ) (inputs : List (Input Unit)) : Prop :=
  ∀ early req late, inputs = early ++ .bus req :: late → kind (after c early) → ¬(after c early).Lowers req

theorem NeverLowers.of_append {kind : Controller δ → Prop} {early late : List (Input Unit)}
    (never : c.NeverLowers kind (early ++ late)) : c.NeverLowers kind early := by
  rintro first req rest rfl
  exact never first req (rest ++ late) (by rw [List.append_assoc, List.cons_append])

/-- While no transaction lowers it, `arm` is up until a frame is complete. -/
theorem Sound.armed_of_shifting (sound : c.Sound frameWidth cycles) (idle : c.transfer = .idle)
    (never : c.NeverLowers Shifting inputs) (shifting : (after c inputs).Shifting) :
    (after c inputs).armed = true := by
  induction inputs using List.reverseRecOn with
  | nil =>
    obtain ⟨left, busy⟩ := sound.shifting_iff.1 shifting
    cases idle.symm.trans busy
  | append_singleton inputs i ih =>
    have before := sound.along inputs
    obtain ⟨left, busy⟩ := (sound.along _).shifting_iff.1 shifting
    rw [Input.after_concat] at busy ⊢
    cases i with
    | bus req =>
      have still : (after c inputs).Shifting := before.shifting_iff.2 ⟨left, busy⟩
      have up := ih never.of_append still
      have kept := never inputs req [] rfl still
      rw [Lowers, not_and, Bool.not_eq_false] at kept
      exact kept up
    | move _ =>
      refine (armed_tick _).trans ?_
      rcases Transfer.next_eq_busy_iff.1 ((transfer_tick _).symm.trans busy) with ⟨-, armed, -⟩ | earlier
      · exact armed
      · exact ih never.of_append (before.shifting_iff.2 ⟨_, earlier⟩)

/-- Along a history a session stays where it is or moves on in its round. -/
def KeepsRound (c : Controller δ) (inputs : List (Input Unit)) : Prop :=
  ∀ early i late, inputs = early ++ i :: late → (after c early).GoesRound i

/-- A session goes round exactly if `arm` is not lowered before the frame is complete. -/
theorem Sound.keepsRound_iff (sound : c.Sound frameWidth cycles) (idle : c.transfer = .idle) :
    c.KeepsRound inputs ↔ c.NeverLowers (·.session ≠ .finished) inputs := by
  constructor
  · intro round early req late split
    exact (goesRound_bus_iff req).1 (round early (.bus req) late split)
  · rintro never early i late rfl
    have now := sound.along early
    cases i with
    | bus req => exact (goesRound_bus_iff req).2 (never early req late rfl)
    | move _ =>
      refine now.goesRound_tick_iff.2 fun completes => ?_
      have shifting := now.shifting_iff.2 ⟨0, now.completes_iff.1 completes⟩
      refine sound.armed_of_shifting idle ?_ shifting
      intro first req rest split kind
      exact never.of_append first req rest split ((sound.along first).not_finished_of_shifting kind)

/-- An idle session is reported while a frame is being shifted exactly if `arm` was lowered meanwhile. -/
theorem Sound.idle_while_shifting_iff (sound : c.Sound frameWidth cycles) (idle : c.transfer = .idle) :
    (∀ early late, inputs = early ++ late → (after c early).session = .idle → ¬(after c early).Shifting) ↔
      c.NeverLowers Shifting inputs := by
  constructor
  · rintro honest early req late rfl shifting ⟨-, low⟩
    have still : (after c (early ++ [.bus req])).Shifting := by
      rw [(sound.along _).shifting_iff, Input.after_concat]
      exact (sound.along early).shifting_iff.1 shifting
    refine honest (early ++ [.bus req]) late (by simp) (session_eq_idle_iff.2 ⟨?_, ?_⟩) still
    · exact (sound.along _).not_finished_iff.1 still.2
    · rw [Input.after_concat]
      exact low
  · rintro never early late rfl reported shifting
    have up := sound.armed_of_shifting idle never.of_append shifting
    rw [(session_eq_idle_iff.1 reported).2] at up
    cases up

end Histories

/-- What a controller reports of its session, and where the session leaves its round. -/
structure Reports [SerialDevice δ] (c : Controller δ) : Prop where
  finished : c.session = .finished ↔ c.registers.value finished = 1
  armed : c.session = .armed ↔ c.registers.value Controller.finished = 0 ∧ c.armed = true
  idle : c.session = .idle ↔ c.registers.value Controller.finished = 0 ∧ c.armed = false
  /-- A session becomes finished as its frame is completed. -/
  entered : ∀ i, c.session ≠ .finished → (Input.step c i).session = .finished → i = .tick ∧ c.Completes
  /-- A transaction that lowers `arm` early takes the session out of its round. -/
  bus : ∀ req, c.GoesRound (.bus req) ↔ (c.session ≠ .finished → ¬c.Lowers req)
  /-- So does the completion of a frame whose `arm` is low. -/
  tick : c.GoesRound .tick ↔ (c.Completes → c.armed = true)

theorem Sound.reports [SerialDevice δ] (sound : c.Sound frameWidth cycles) : c.Reports where
  finished := by rw [session_eq_finished_iff, sound.finished_iff]
  armed := by rw [session_eq_armed_iff, sound.not_finished_iff]
  idle := by rw [session_eq_idle_iff, sound.not_finished_iff]
  entered _ := sound.entered
  bus := goesRound_bus_iff
  tick := sound.goesRound_tick_iff

/-- After every history a controller reports its `finished` flag and else its `arm` bit. The session goes round as it
should exactly if no transaction has lowered `arm` before the frame was complete, and is reported idle only while
no frame is being shifted exactly if none has lowered `arm` while one was. -/
theorem reported_session_goes_round_iff [SerialDevice δ] (wide : 0 < frameWidth) (narrow : frameWidth ≤ 32)
    (cycles : Nat) (device : δ) (inputs : List (Input Unit)) :
    (after (reset device frameWidth cycles) inputs).Reports ∧
    ((reset device frameWidth cycles).KeepsRound inputs ↔
      (reset device frameWidth cycles).NeverLowers (·.session ≠ .finished) inputs) ∧
    ((∀ early late, inputs = early ++ late →
        (after (reset device frameWidth cycles) early).session = .idle →
          ¬(after (reset device frameWidth cycles) early).Shifting) ↔
      (reset device frameWidth cycles).NeverLowers Shifting inputs) := by
  have sound : (reset device frameWidth cycles).Sound frameWidth cycles := sound_reset device wide narrow
  exact ⟨(sound.along inputs).reports, sound.keepsRound_iff rfl, sound.idle_while_shifting_iff rfl⟩

/-- A session whose `arm` is lowered while its frame is being shifted. -/
def earlyRelease : List (Input Unit) :=
  [.bus (.writeWord (Layout.offset arm) 1), .tick, .bus (.writeWord (Layout.offset arm) 0), .tick, .tick, .tick]

theorem early_release_leaves_round :
    (0 < 24 ∧ 24 ≤ 32) ∧ (after (reset DelayLine.powerOn 24 2) earlyRelease).Reports ∧
      ¬(reset DelayLine.powerOn 24 2).KeepsRound earlyRelease := by
  obtain ⟨reports, round, -⟩ :=
    reported_session_goes_round_iff (by decide : 0 < 24) (by decide) 2 DelayLine.powerOn earlyRelease
  refine ⟨by decide, reports, fun goes => ?_⟩
  refine round.1 goes [.bus (.writeWord (Layout.offset arm) 1), .tick] (.writeWord (Layout.offset arm) 0)
    [.tick, .tick, .tick] rfl (by decide) ⟨by decide, by decide⟩

/-- The session is reported idle while its frame is being shifted, and finished right after that. -/
theorem early_release_is_reported_idle :
    (after (reset DelayLine.powerOn 24 2) (earlyRelease.take 3)).Shifting ∧
    (after (reset DelayLine.powerOn 24 2) (earlyRelease.take 3)).session = .idle ∧
    (after (reset DelayLine.powerOn 24 2) (earlyRelease.take 5)).session = .idle ∧
    (after (reset DelayLine.powerOn 24 2) earlyRelease).session = .finished := by
  refine ⟨⟨?_, ?_⟩, ?_, ?_, ?_⟩ <;> decide

end Controller

end InstrumentBus.Spi
