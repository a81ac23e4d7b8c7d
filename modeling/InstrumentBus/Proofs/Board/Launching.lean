import InstrumentBus.Proofs.Board.Grants
import InstrumentBus.Proofs.Board.Halting

/-!
# When a start of the player succeeds

A start is refused before it writes anything, or it succeeds (`start_succeeds_or_only_reads`). Between the two
lies the check of the grant, one read of the grant's own selection. After it the player is halted whatever it
was doing, its RAM is turned to the supervisor and filled, the settings are made, the RAM is turned back and
`run` is set; no access of these can fail, and the player is at a standstill until the last of them.
-/

namespace InstrumentBus

namespace WaveformDriver

variable {τ : Type} [Transport τ] {d : WaveformDriver} {g : Grant} {samples : List Word} {t : τ}

/-- A start with as many samples as fit is made of the check of its grant and of `play`. -/
theorem perform_start_of_fits (nonempty : samples ≠ []) (fits : samples.length ≤ d.capacity) (spacing : Word)
    (loop : Bool) :
    (d.start g samples spacing loop).perform (.connect t) =
      ((g.arbiter.check g d.dacMaster >>= fun _ => d.play samples spacing loop).perform t).map id
        Link.connect := by
  have some : ¬samples.isEmpty = true := fun none => nonempty (List.isEmpty_iff.1 none)
  rw [start, if_neg some, if_neg (Nat.not_lt.2 fits)]
  rfl

/-- A start with none or with too many samples makes no access at all. -/
theorem perform_start_of_misfit (misfit : samples = [] ∨ d.capacity < samples.length) :
    ∃ e, ∀ (τ : Type) [Transport τ] (t : τ) (g : Grant) (spacing : Word) (loop : Bool),
      (d.start g samples spacing loop).perform (.connect t) = (.error e, .connect t) := by
  by_cases none : samples.isEmpty = true
  · refine ⟨.outOfRange "an empty waveform", fun τ _ t g spacing loop => ?_⟩
    rw [start, if_pos none]
    rfl
  · have many : d.capacity < samples.length :=
      misfit.resolve_left fun empty => none (List.isEmpty_iff.2 empty)
    refine ⟨.tooLarge (4 * samples.length) d.ramSize, fun τ _ t g spacing loop => ?_⟩
    rw [start, if_neg none, if_pos many]
    rfl

end WaveformDriver

/-- The check of a grant by its own arbiter reads the selection once, and passes if the grant is for
`requester` and the selection names it. -/
theorem Grant.perform_check_of_readWord {τ : Type} [Transport τ] {g : Grant} {t after : τ} {w : Word}
    (read : Transport.readWord t g.arbiter.selection.addr = (.ok w, after)) {owner : Nat}
    (owned : (w &&& widthMask g.arbiter.selection.width).toNat = owner) (requester : Nat) :
    (g.arbiter.check g requester).perform t =
      (if g.master = requester ∧ owner = requester then .ok ()
        else .error (.notOwner g.arbiter.name owner requester), after) := by
  have reads := Arbiter.perform_owner_of_readWord read
  rw [owned] at reads
  rw [Arbiter.check, Action.perform_bind_of_ok reads]
  by_cases passes : g.master = requester ∧ owner = requester
  · rw [if_pos passes, if_pos ⟨rfl, passes⟩]
    rfl
  · rw [if_neg passes, if_neg fun all => passes all.2]
    rfl

namespace Board

open InstrumentBus.Action (Meets Keeps)
open Transport (ReadsKeep)
open Waveform (Player Rig)
open Waveform.Rig (Halted Holds Launched)

variable {c : Config} {b : Board} {words : List Word} {master : Nat} {settings : List (Nat × Word)}

variable (c) (id dacMaster : Nat) {limit : Nat} {samples : List Word}

/-- As soon as `run` is set, the player is about to play. -/
theorem meets_launch (ramMaster limit : Nat) (fresh : Player.run ∉ settings.map Prod.fst) :
    Meets (On c fun r => Halted words master settings r ∧ r.HasRam)
      (((playerDriver c id ramMaster dacMaster).withPollLimit limit).run.set 1)
      (fun _ => On c (Launched words master settings)) fun _ _ => False :=
  meets_set (fun reach => reach.holds_player rfl) rfl 1 rfl fun r sound before =>
    before.1.tick.launch sound.tick ((Rig.hasRam_tick r).2 before.2) fresh

/-! ## The outcomes of a start -/

variable {c id dacMaster} {d : WaveformDriver} {g : Grant} {spacing : Word} {loop : Bool}

/-- What a start that succeeds leaves of a board: the samples lie in the RAM from its first word on and its
other words are as they were, the player has its RAM and its settings and is ready, and `run` is set. -/
structure Launch (b : Board) (samples : List Word) (spacing : Word) (loop : Bool) (after : Board) : Prop where
  words : after.wf0Ram.device.words.toList = samples ++ b.wf0Ram.device.words.toList.drop samples.length
  width : (after.wf0.registers.value Player.width).toNat = samples.length
  spaced : after.wf0.registers.value Player.spacing = spacing
  looped : after.wf0.registers.value Player.doLoop = if loop then 1 else 0
  run : after.wf0.registers.value Player.run = 1
  ready : after.wf0.state = .ready
  ram : after.owner .wf0Ram = ramPlayerMaster
  dac : after.owner .dac0 = b.owner .dac0

theorem launch_of_launched {after : Board} (short : samples.length ≤ WaveformDriver.maxSamples)
    (launched : Launched (samples ++ b.rig.memory.words.toList.drop samples.length) (b.owner .dac0)
      (settingsFor samples spacing loop) after.rig) : Launch b samples spacing loop after := by
  refine ⟨launched.holds.words, ?_, ?_, ?_, launched.run, launched.ready, hasRam_rig.1 launched.ram,
    launched.holds.connected⟩
  · have width := launched.set Player.width _ (.tail _ (.tail _ (.head _)))
    exact (congrArg BitVec.toNat width).trans (toNat_count short)
  · exact (launched.set Player.spacing _ (.tail _ (.head _))).trans (and_widthMask_word spacing)
  · refine (launched.set Player.doLoop _ (.head _)).trans ?_
    cases loop <;> decide

/-- What a start asks for: samples that fit, a grant for the player, and that the player has the DAC. -/
structure Startable (b : Board) (d : WaveformDriver) (g : Grant) (samples : List Word) : Prop where
  some : 1 ≤ samples.length
  fit : samples.length ≤ d.capacity
  granted : g.master = dacPlayerMaster
  connected : b.owner .dac0 = dacPlayerMaster

/-- A start with a grant that passes its check succeeds. The player is at a standstill before `run` is set. -/
theorem launches (reach : Reachable c b) (polls : 0 < limit)
    (made : d = (playerDriver c id ramPlayerMaster dacPlayerMaster).withPollLimit limit)
    (ready : Startable b d g samples) (guards : Guards c .dac0 g.arbiter) :
    ∃ before after : Board,
      (d.start g samples spacing loop).perform (.connect (View.mk .supervisor b)) =
          (.ok (), .connect (View.mk .supervisor after)) ∧
        (g.arbiter.check g dacPlayerMaster >>= fun _ => d.prepare samples spacing loop).perform
          (View.mk .supervisor b) = (.ok (), View.mk .supervisor before) ∧
        before.wf0.Still ∧
        (d.run.set 1).perform (View.mk .supervisor before) = (.ok (), View.mk .supervisor after) ∧
        Launch b samples spacing loop after := by
  obtain ⟨some, fit, granted, connected⟩ := ready
  obtain ⟨w, read, owned⟩ := guards.readWord reach
  have passes := Grant.perform_check_of_readWord read owned dacPlayerMaster
  rw [if_pos ⟨granted, connected⟩] at passes
  have start := WaveformDriver.perform_start_of_fits (g := g) (t := View.mk .supervisor b)
    (List.length_pos_iff.1 some) fit spacing loop
  subst made
  have roomy : samples.length ≤ c.ramBytes.toNat / 4 ∧ samples.length ≤ WaveformDriver.maxSamples :=
    Nat.le_min.1 fit
  have holds : On c (Holds b.rig.memory.words.toList (b.owner .dac0)) (View.mk .supervisor b.tick) := by
    refine ⟨rfl, .step .tick reach, ?_⟩
    rw [show (View.mk .supervisor b.tick).board.rig = b.rig.tick from rig_tick b]
    exact Holds.tick ⟨rfl, rfl⟩
  obtain ⟨⟨⟩, ⟨side, before⟩, performed, on⟩ :=
    ((meets_prepare c id dacPlayerMaster limit spacing loop roomy.1).of_no_error fun _ _ none =>
      Nat.ne_of_gt polls none).succeeds holds
  obtain rfl : side = .supervisor := on.side
  have prepared : (g.arbiter.check g dacPlayerMaster >>= fun _ =>
      ((playerDriver c id ramPlayerMaster dacPlayerMaster).withPollLimit limit).prepare samples spacing
        loop).perform (View.mk .supervisor b) = (.ok (), View.mk .supervisor before) := by
    rw [Action.perform_bind_of_ok passes]
    exact performed
  obtain ⟨⟨⟩, ⟨side, after⟩, started, left⟩ :=
    (meets_launch c id dacPlayerMaster ramPlayerMaster limit
      (run_not_mem_settingsFor samples spacing loop)).succeeds on
  obtain rfl : side = .supervisor := left.side
  refine ⟨before, after, ?_, prepared, on.holds.1.still, started, launch_of_launched roomy.2 left.holds⟩
  have whole := Action.perform_bind_of_ok prepared fun _ =>
    ((playerDriver c id ramPlayerMaster dacPlayerMaster).withPollLimit limit).run.set 1
  rw [started] at whole
  rw [start, WaveformDriver.play, ← bind_assoc]
  exact congrArg (fun outcome => (outcome.1, Link.connect outcome.2)) whole

/-- A start is refused alike on a board and on a probe in front of it, which records no access or one, that
reads the selection of the grant. -/
def Refused (b : Board) (g : Grant) (start : {τ : Type} → [Transport τ] → Action (Link τ) Unit) : Prop :=
  ∃ (e : DriverError) (p : Probe View),
    start.perform (.connect (View.mk .supervisor b)) = (.error e, .connect p.bus) ∧
    start.perform (.connect (Probe.attach (View.mk .supervisor b))) = (.error e, .connect p) ∧
    (p.record = [] ∨ ∃ outcome, p.record = [.readWord g.arbiter.selection.addr outcome])

theorem refused_of_misfit (misfit : samples = [] ∨ d.capacity < samples.length) :
    Refused b g (d.start g samples spacing loop) := by
  obtain ⟨e, fails⟩ := WaveformDriver.perform_start_of_misfit misfit
  exact ⟨e, .attach (.mk .supervisor b), fails _ _ g spacing loop, fails _ _ g spacing loop, .inl rfl⟩

theorem refused_of_check (reach : Reachable c b) {device : Shared} (guards : Guards c device g.arbiter)
    (nonempty : samples ≠ []) (fits : samples.length ≤ d.capacity)
    (unowned : ¬(g.master = d.dacMaster ∧ b.owner device = d.dacMaster)) :
    Refused b g (d.start g samples spacing loop) := by
  obtain ⟨w, read, owned⟩ := guards.readWord reach
  let p : Probe View :=
    { Probe.attach (.mk .supervisor b.tick) with events := [.readWord g.arbiter.selection.addr (.ok w)] }
  have probed : Transport.readWord (Probe.attach (View.mk .supervisor b)) g.arbiter.selection.addr =
      (.ok w, p) := by
    rw [Probe.readWord_attach, read]
  have viewed := Grant.perform_check_of_readWord read owned d.dacMaster
  have recorded := Grant.perform_check_of_readWord probed owned d.dacMaster
  rw [if_neg unowned] at viewed recorded
  refine ⟨.notOwner g.arbiter.name (b.owner device) d.dacMaster, p, ?_, ?_, .inr ⟨.ok w, rfl⟩⟩
  · rw [WaveformDriver.perform_start_of_fits nonempty fits, Action.perform_bind_of_error viewed]
    rfl
  · rw [WaveformDriver.perform_start_of_fits nonempty fits, Action.perform_bind_of_error recorded]
    rfl

/-- A start of the player succeeds if there are samples, they fit, the grant is for the player and the DAC is
connected to it. The samples then take the place of the first words of the RAM, and the player is at a
standstill until the last access sets `run`. Any other start is refused before it writes anything. -/
theorem start_succeeds_or_only_reads (reach : Reachable c b) (id : Nat) :
    ∃ d, WaveformDriver.ofManifest id (b.manifest .supervisor) "wf0" ramPlayerMaster dacPlayerMaster = .ok d ∧
      ∀ (limit : Nat) (g : Grant) (samples : List Word) (spacing : Word) (loop : Bool), 0 < limit →
        Obtained c g →
        (Startable b d g samples → ∃ before after : Board,
          ((d.withPollLimit limit).start g samples spacing loop).perform (.connect (View.mk .supervisor b)) =
            (.ok (), .connect (View.mk .supervisor after)) ∧
          (g.arbiter.check g dacPlayerMaster >>= fun _ =>
            (d.withPollLimit limit).prepare samples spacing loop).perform (View.mk .supervisor b) =
            (.ok (), View.mk .supervisor before) ∧
          before.wf0.Still ∧
          (d.run.set 1).perform (View.mk .supervisor before) = (.ok (), View.mk .supervisor after) ∧
          Launch b samples spacing loop after) ∧
        (¬Startable b d g samples → Refused b g ((d.withPollLimit limit).start g samples spacing loop)) := by
  refine ⟨_, reach.ofManifest_player id _ _, fun limit g samples spacing loop polls obtained => ⟨?_, ?_⟩⟩
  · obtain ⟨device, guards, few⟩ := obtained.guards
    intro ready
    obtain rfl := Shared.eq_dac0_of_lt_masters (ready.granted ▸ few)
    exact launches reach polls rfl ⟨ready.some, ready.fit, ready.granted, ready.connected⟩ guards
  · obtain ⟨device, guards, few⟩ := obtained.guards
    intro unready
    by_cases nonempty : samples = []
    · exact refused_of_misfit (.inl nonempty)
    by_cases fit : samples.length ≤ (playerDriver c id ramPlayerMaster dacPlayerMaster).capacity
    · refine refused_of_check reach guards nonempty fit fun passes => unready ?_
      obtain rfl := Shared.eq_dac0_of_lt_masters (passes.1 ▸ few)
      exact ⟨List.length_pos_iff.2 nonempty, fit, passes.1, passes.2⟩
    · exact refused_of_misfit (.inr (Nat.lt_of_not_le fit))

/-- The player of a small board is started again in the middle of a frame. Without samples it is not. -/
theorem started_again_amid_frame : Reachable (.small 4) playing ∧ playing.wf0.state = .running ∧
    ∃ d g, WaveformDriver.ofManifest 0 (playing.manifest .supervisor) "wf0" ramPlayerMaster dacPlayerMaster =
        .ok d ∧
      Obtained (.small 4) g ∧ Startable playing d g [7] ∧
      (∃ after : Board, ((d.withPollLimit 1).start g [7] 3 true).perform
          (.connect (View.mk .supervisor playing)) = (.ok (), .connect (View.mk .supervisor after)) ∧
        Launch playing [7] 3 true after) ∧
      Refused playing g ((d.withPollLimit 1).start g [] 3 true) := by
  have fresh : Reachable (.small 4) (small 4) := .assembled (assemble_small 4)
  have reach : Reachable (.small 4) playing := .run fresh _
  have acquires : (((Port.dac0.driver (.small 4) 0).arbiter.acquire dacPlayerMaster).perform
      (.connect (View.mk .supervisor (small 4)))).1 =
      .ok ⟨(Port.dac0.driver (.small 4) 0).arbiter, dacPlayerMaster⟩ := by decide +kernel
  have obtained := Obtained.acquired fresh (fresh.ofManifest_arbiter .dac0 0) rfl fresh
    (outcome_eq acquires)
  obtain ⟨d, found, starts⟩ := start_succeeds_or_only_reads reach 0
  obtain rfl := Except.ok.inj ((reach.ofManifest_player 0 _ _).symm.trans found)
  have ready : Startable playing (playerDriver (.small 4) 0 ramPlayerMaster dacPlayerMaster)
      ⟨(Port.dac0.driver (.small 4) 0).arbiter, dacPlayerMaster⟩ [7] :=
    ⟨by decide, by decide +kernel, rfl, by decide +kernel⟩
  obtain ⟨before, after, started, -, -, -, launch⟩ := (starts 1 _ [7] 3 true Nat.one_pos obtained).1 ready
  have refused := (starts 1 _ [] 3 true Nat.one_pos obtained).2 fun ready => absurd ready.some (by decide)
  exact ⟨reach, by decide +kernel, _, _, found, obtained, ready, ⟨after, started, launch⟩, refused⟩

end Board

end InstrumentBus
