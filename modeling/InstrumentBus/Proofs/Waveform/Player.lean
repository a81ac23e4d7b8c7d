import InstrumentBus.Proofs.Bus.Ports
import InstrumentBus.Proofs.RegisterFile.History

/-!
# The registers and the moves of the player

The flags of a player tell its state (`Sound`), and nothing that the player does reaches its settings.
`tick_cases` lists what one step can be: the player starts, halts, plays a phase of the current sample, or
rests. Only a halt and a phase touch the ports.
-/

namespace InstrumentBus.Waveform.Player

variable {p : Player}

/-! ## Registers -/

theorem sound_layout : layout.Sound := by
  refine ⟨by decide, ?_, by decide⟩
  intro f present
  simp only [layout, List.mem_toArray, List.mem_cons, List.not_mem_nil, or_false] at present
  rcases present with rfl | rfl | rfl | rfl | rfl | rfl | rfl | rfl <;> decide

theorem width_field : layout.fields[width]? = some ⟨"wform_width", 16, .readWrite⟩ :=
  rfl

theorem cursor_field : layout.fields[cursor]? = some ⟨"cursor", 16, .readOnly⟩ :=
  rfl

/-- A player whose flags tell its state. -/
structure Sound (p : Player) : Prop where
  fits : p.registers.Fits
  atRest : p.registers.value finishedOrReady = if p.state = .running then 0 else 1
  atEnd : p.registers.value finished = if p.state = .finished then 1 else 0

theorem value_drive_flag (r : RegisterFile layout) {i : Nat} (flag : i = finishedOrReady ∨ i = finished)
    {v : Word} (bit : v &&& widthMask 1 = v) : (r.drive i v).value i = v := by
  have inside : i < layout.count := by
    rcases flag with rfl | rfl <;> decide
  have width : layout.widthAt i = 1 := by
    rcases flag with rfl | rfl <;> rfl
  rw [RegisterFile.value_drive_self _ inside, width, bit]

/-- Entering a state drives the two flags alone. -/
theorem value_enter (p : Player) (state : State) {j : Nat} (open_ : j ≠ finishedOrReady)
    (beside : j ≠ finished) : (p.enter state).registers.value j = p.registers.value j :=
  (RegisterFile.value_drive_of_ne _ beside.symm _).trans
    (RegisterFile.value_drive_of_ne _ open_.symm _)

theorem sound_enter (fits : p.registers.Fits) (state : State) : (p.enter state).Sound := by
  refine ⟨(fits.step (.drive finishedOrReady _)).step (.drive finished _), ?_, ?_⟩
  · have driven : (p.enter state).registers.value finishedOrReady =
        if state = .running then 0 else 1 := by
      refine (RegisterFile.value_drive_of_ne _ (by decide) _).trans (value_drive_flag _ (.inl rfl) ?_)
      split <;> decide
    exact driven
  · have driven : (p.enter state).registers.value finished =
        if state = .finished then 1 else 0 := by
      refine value_drive_flag _ (.inr rfl) ?_
      split <;> decide
    exact driven

theorem sound_reset : reset.Sound := by
  refine ⟨(RegisterFile.fits_zero _).step (.drive finishedOrReady 1), ?_, ?_⟩
  · exact value_drive_flag _ (.inl rfl) (by decide)
  · exact (RegisterFile.value_drive_of_ne _ (by decide) _).trans (RegisterFile.value_zero _ _)

theorem value_cursor_drive (p : Player) (v : Word) :
    (p.drive cursor v).registers.value cursor = v &&& widthMask 16 :=
  RegisterFile.value_drive_self _ (by decide) _

/-- Moving the cursor drives no other register. -/
theorem value_drive_cursor (p : Player) (v : Word) {j : Nat} (beside : j ≠ cursor) :
    (p.drive cursor v).registers.value j = p.registers.value j :=
  RegisterFile.value_drive_of_ne _ beside.symm _

theorem Sound.drive_cursor (sound : p.Sound) (v : Word) : (p.drive cursor v).Sound := by
  refine ⟨sound.fits.step (.drive cursor v), ?_, ?_⟩
  · exact (value_drive_cursor p v (by decide)).trans sound.atRest
  · exact (value_drive_cursor p v (by decide)).trans sound.atEnd

/-- No transaction reaches the flags, the state or the phase. -/
theorem Sound.transact (sound : p.Sound) (req : Request) : (p.transact req).2.Sound := by
  have kept {i : Nat} {f : Field} (found : layout.fields[i]? = some f)
      (fixed : f.access.writableBy .supervisor = false) :
      (p.transact req).2.registers.value i = p.registers.value i :=
    p.registers.value_transactFrom_of_not_writableBy found fixed req
  refine ⟨sound.fits.step (.transact .supervisor req), ?_, ?_⟩
  · exact (kept (f := ⟨"finished_or_ready", 1, .readOnly⟩) rfl rfl).trans sound.atRest
  · exact (kept (f := ⟨"finished", 1, .readOnly⟩) rfl rfl).trans sound.atEnd

/-! ## Moves -/

/-- The settings let the player run. -/
def MayRun (p : Player) : Prop :=
  p.registers.value run = 1 ∧ p.registers.value forceStop ≠ 1

instance (p : Player) : Decidable p.MayRun :=
  inferInstanceAs (Decidable (p.registers.value run = 1 ∧ p.registers.value forceStop ≠ 1))

/-- The player after a halt, which takes the cursor back if it was forced. -/
def halt (p : Player) : Player :=
  (if p.registers.value forceStop = 1 then p.drive cursor 0 else p).enter .ready

/-- The player after a step in which it neither runs nor starts. -/
def settle (p : Player) : Player :=
  if p.registers.value forceStop = 1 ∨ p.state = .finished ∧ p.registers.value run ≠ 1 then
    p.enter .ready
  else p

section Moves

variable {ρ δ : Type} [Target ρ] [Target δ]

theorem tick_of_starts (ready : p.state = .ready) (may : p.MayRun) (ram : ρ) (dac : δ) :
    p.tick ram dac = ((p.drive cursor 0).enter .running, ram, dac) := by
  rw [tick, if_neg may.2, ready]
  exact if_pos may.1

theorem tick_of_plays (running : p.state = .running) (may : p.MayRun) (ram : ρ) (dac : δ) :
    p.tick ram dac = p.playPhase ram dac := by
  rw [tick, if_neg may.2, running]
  exact if_pos may.1

theorem tick_of_halts (running : p.state = .running) (may : ¬p.MayRun) (ram : ρ) (dac : δ) :
    p.tick ram dac = (p.halt, ram, (Target.transact dac lowerArm).2) := by
  unfold tick halt
  by_cases forced : p.registers.value forceStop = 1
  · rw [if_pos forced, if_pos running, if_pos forced]
  · have cleared : p.registers.value run ≠ 1 := fun set => may ⟨set, forced⟩
    simp only [forced, running, cleared, if_false]

theorem tick_of_rests (idle : p.state ≠ .running) (may : p.state = .ready → ¬p.MayRun) (ram : ρ)
    (dac : δ) : p.tick ram dac = (p.settle, ram, dac) := by
  unfold tick settle
  by_cases forced : p.registers.value forceStop = 1
  · simp only [forced, idle, if_true, if_false, true_or]
  · cases state : p.state with
    | running => exact absurd state idle
    | ready =>
      have cleared : p.registers.value run ≠ 1 := fun set => may state ⟨set, forced⟩
      simp only [forced, cleared, if_false, reduceCtorEq, false_and, or_self]
    | finished =>
      by_cases set : p.registers.value run = 1
      · simp only [forced, set, if_true, if_false, ne_eq, not_true_eq_false, and_false, or_self]
      · simp only [forced, set, if_true, if_false, ne_eq, not_false_eq_true, and_self, or_true]

/-- What a step can be: a start, a phase of a sample, a halt or a rest. -/
theorem tick_cases (p : Player) (ram : ρ) (dac : δ) :
    (p.state = .ready ∧ p.MayRun ∧
      p.tick ram dac = ((p.drive cursor 0).enter .running, ram, dac)) ∨
    (p.state = .running ∧ p.MayRun ∧ p.tick ram dac = p.playPhase ram dac) ∨
    (p.state = .running ∧ ¬p.MayRun ∧
      p.tick ram dac = (p.halt, ram, (Target.transact dac lowerArm).2)) ∨
    (p.state ≠ .running ∧ (p.state = .ready → ¬p.MayRun) ∧
      p.tick ram dac = (p.settle, ram, dac)) := by
  by_cases running : p.state = .running
  · by_cases may : p.MayRun
    · exact .inr (.inl ⟨running, may, tick_of_plays running may ram dac⟩)
    · exact .inr (.inr (.inl ⟨running, may, tick_of_halts running may ram dac⟩))
  · by_cases starts : p.state = .ready ∧ p.MayRun
    · exact .inl ⟨starts.1, starts.2, tick_of_starts starts.1 starts.2 ram dac⟩
    · have may : p.state = .ready → ¬p.MayRun := fun ready may => starts ⟨ready, may⟩
      exact .inr (.inr (.inr ⟨running, may, tick_of_rests running may ram dac⟩))

/-- A phase moves the player to another phase of the same sample, or past the sample. -/
theorem playPhase_player (p : Player) (ram : ρ) (dac : δ) :
    (∃ phase, (p.playPhase ram dac).1 = { p with phase }) ∨ (p.playPhase ram dac).1 = p.advance := by
  unfold playPhase
  cases phase : p.phase with
  | load => exact .inl ⟨.transfer, rfl⟩
  | transfer =>
    dsimp only
    split
    · exact .inl ⟨.awaitFrame, rfl⟩
    · exact .inl ⟨p.phase, rfl⟩
  | awaitFrame =>
    dsimp only
    split
    · exact .inl ⟨.wait 0, rfl⟩
    · exact .inl ⟨p.phase, rfl⟩
  | wait elapsed =>
    dsimp only
    split
    · exact .inl ⟨.wait (elapsed + 1), rfl⟩
    · exact .inr rfl

/-- What follows a sample begins with the copying of one. -/
theorem phase_advance (p : Player) : p.advance.phase = .load := by
  unfold advance
  dsimp only
  split
  · rfl
  · split <;> rfl

/-! ## What a step keeps -/

theorem Sound.advance (sound : p.Sound) : p.advance.Sound := by
  unfold Player.advance
  dsimp only
  split
  · exact ⟨(sound.drive_cursor _).fits, (sound.drive_cursor _).atRest, (sound.drive_cursor _).atEnd⟩
  · split
    · exact ⟨(sound.drive_cursor _).fits, (sound.drive_cursor _).atRest, (sound.drive_cursor _).atEnd⟩
    · exact sound_enter sound.fits _

theorem Sound.tick (sound : p.Sound) (ram : ρ) (dac : δ) : (p.tick ram dac).1.Sound := by
  rcases tick_cases p ram dac with ⟨-, -, ticked⟩ | ⟨-, -, ticked⟩ | ⟨-, -, ticked⟩ | ⟨-, -, ticked⟩
  · rw [ticked]
    exact sound_enter (sound.drive_cursor 0).fits _
  · rw [ticked]
    rcases playPhase_player p ram dac with ⟨phase, played⟩ | played
    · rw [played]
      exact ⟨sound.fits, sound.atRest, sound.atEnd⟩
    · rw [played]
      exact sound.advance
  · rw [ticked, halt]
    split
    · exact sound_enter (sound.drive_cursor 0).fits _
    · exact sound_enter sound.fits _
  · rw [ticked, settle]
    split
    · exact sound_enter sound.fits _
    · exact sound

theorem value_advance (p : Player) {j : Nat} (setting : j < finishedOrReady) :
    p.advance.registers.value j = p.registers.value j := by
  have open_ : j ≠ finishedOrReady := Nat.ne_of_lt setting
  have beside : j ≠ finished := Nat.ne_of_lt (Nat.lt_trans setting (by decide))
  have apart : j ≠ cursor := Nat.ne_of_lt (Nat.lt_trans setting (by decide))
  unfold advance
  dsimp only
  split
  · exact value_drive_cursor p _ apart
  · split
    · exact value_drive_cursor p _ apart
    · exact value_enter p _ open_ beside

/-- A step reaches no setting of the player. -/
theorem value_tick (p : Player) (ram : ρ) (dac : δ) {j : Nat} (setting : j < finishedOrReady) :
    (p.tick ram dac).1.registers.value j = p.registers.value j := by
  have open_ : j ≠ finishedOrReady := Nat.ne_of_lt setting
  have beside : j ≠ finished := Nat.ne_of_lt (Nat.lt_trans setting (by decide))
  have apart : j ≠ cursor := Nat.ne_of_lt (Nat.lt_trans setting (by decide))
  rcases tick_cases p ram dac with ⟨-, -, ticked⟩ | ⟨-, -, ticked⟩ | ⟨-, -, ticked⟩ | ⟨-, -, ticked⟩
  · rw [ticked]
    exact (value_enter _ _ open_ beside).trans (value_drive_cursor p 0 apart)
  · rw [ticked]
    rcases playPhase_player p ram dac with ⟨phase, played⟩ | played
    · rw [played]
    · rw [played]
      exact value_advance p setting
  · rw [ticked, halt]
    split
    · exact (value_enter _ _ open_ beside).trans (value_drive_cursor p 0 apart)
    · exact value_enter _ _ open_ beside
  · rw [ticked, settle]
    split
    · exact value_enter _ _ open_ beside
    · rfl

theorem mayRun_tick (p : Player) (ram : ρ) (dac : δ) : (p.tick ram dac).1.MayRun ↔ p.MayRun := by
  rw [MayRun, MayRun, value_tick p ram dac (by decide), value_tick p ram dac (by decide)]

end Moves

end InstrumentBus.Waveform.Player
