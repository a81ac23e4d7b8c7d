import InstrumentBus.Proofs.Board.Starting

/-!
# The DAC after a transfer that failed

A transfer of the supervisor fails because one of its waits runs out, and the DAC is handed to the player.
What becomes of the player depends on how `arm` is when it starts (`player_finishes_unless_armed`). While
`arm` is low it plays to the end, as after a transfer that gave up on `ready_to_arm`. While `arm` is high it
waits for a controller that never becomes free, as after a transfer that gave up on `finished` while the
player was at rest: the transfer leaves `arm` as it is, and a start of the player lowers it only where it
halts a player that runs. Accesses that do not reach the player are steps of its rig (`Elsewhere.rig`).
-/

namespace InstrumentBus.Board

open InstrumentBus.Action (Meets Keeps)
open Spi (Controller)
open Transport (WritesKeep)
open Waveform (Player Rig)
open Waveform.Rig (Handed Lent Started)

variable {c : Config} {b : Board} {v : View} {P Q : Rig → Prop}

/-! ## The transfer -/

/-- What no step with a transaction of the supervisor on the controller breaks, no write to a register of
the controller breaks. -/
theorem writesKeep_port {i : Nat} {f : Field}
    (found : (Controller.layout Ad5791.frameWidth).fields[i]? = some f)
    (moves : ∀ (r : Rig) req, P r → P (r.tick.step (.dac supervisorMaster req))) :
    WritesKeep (On c P) ((Port.dac0.region c).origin + Layout.offset i) :=
  writesKeep_register (fun reach => reach.holds_port (p := .dac0) found) (fun _ => rfl)
    fun r _ _ before => moves r _ before

/-- A transfer reaches no setting of the player. One that fails was refused, or a wait ran out, which leaves
the supervisor connected, and `arm` low after the first wait and high after the second. -/
theorem meets_send (c : Config) (id limit : Nat) (g : Grant) (frame : Word) :
    Meets (Link.Live (On c fun r => r.player.Calm))
      (((Port.dac0.driver c id).withPollLimit limit).send g frame)
      (fun _ => Link.Live (On c fun r => r.player.Calm))
      fun e => Link.Live fun v => On c (fun r => r.player.Calm) v ∧
        ((∃ owner, e = .notOwner "dac0" owner supervisorIndex) ∨
          v.board.owner .dac0 = supervisorMaster ∧ RunsOut limit e v.board.dac0.device.armed) := by
  have moves (r : Rig) (req : Request) (calm : r.player.Calm) :
      (r.tick.step (.dac supervisorMaster req)).player.Calm := (Rig.calm_tick r).2 calm
  have exchanges := (Supervises.fronts c fun b => b.rig.player.Calm).meets_exchange
    (readsKeep_on fun r _ calm => (Rig.calm_tick r).2 calm) (writesKeep_port Controller.arm_field moves)
    (fun w v owns => writesKeep_port Controller.toSlave_field moves w v owns.kept) id limit g frame
  refine (exchanges.mono (fun _ on => on) (fun _ _ on => on) ?_).locked
  rintro e v (⟨on, refused⟩ | owns)
  · exact ⟨on, .inl refused⟩
  · exact ⟨owns.kept, .inr ⟨owns.owned, owns.holds⟩⟩

/-- The player is started after the DAC was handed to it. -/
theorem started_of_lent {arm : Option Bool} {l handed started : Link View} {g : Grant}
    {samples : List Word} {spacing : Word} {spiId playerId limit : Nat}
    (lent : Link.Live (On c (Lent arm)) l)
    (acquires : ((Port.dac0.driver c spiId).arbiter.acquire dacPlayerMaster).perform l = (.ok g, handed))
    (starts : (((playerDriver c playerId ramPlayerMaster dacPlayerMaster).withPollLimit limit).start g
      samples spacing false).perform handed = (.ok (), started)) :
    On c (Started arm samples spacing) started.bus :=
  ((meets_start c playerId dacPlayerMaster limit g samples spacing).ok
    ((meets_handOver c spiId).locked.ok lent acquires) starts).2

/-! ## Accesses elsewhere -/

/-- The blocks that the player works with: itself, its samples, the DAC, and the selections in front of
these. -/
def Block.ServesPlayer (block : Block) : Prop :=
  block ∈ [.dac0, .dac0Select, .wf0, .wf0Ram, .wf0RamSelect]

instance (block : Block) : Decidable block.ServesPlayer :=
  inferInstanceAs (Decidable (block ∈ _))

theorem Block.rigEvent?_of_not_servesPlayer {block : Block} (spares : ¬block.ServesPlayer) (side : Side)
    (req : Request) : block.rigEvent? side req = none := by
  cases side <;> cases block <;> first | rfl | exact absurd (by decide) spares

/-- So many successful accesses of the processors lead from one board to another, none of them to a block
that the player works with. -/
inductive Elsewhere (c : Config) (b : Board) : Nat → Board → Prop
  | none : Elsewhere c b 0 b
  | access {n : Nat} {middle after : Board} {side : Side} {op : Op} {w : Word} :
    Elsewhere c b n middle → middle.perform side op = (.ok w, after) →
    (∀ region ∈ regionsOf c side, op.addr.wordBase ∈ region → ¬region.owner.ServesPlayer) →
      Elsewhere c b (n + 1) after

/-- Each access elsewhere is a step of the rig, and no more. -/
theorem Elsewhere.rig {n : Nat} {after : Board} (elsewhere : Elsewhere c b n after)
    (reach : Reachable c b) : Reachable c after ∧ after.rig = Clocked.ticks n b.rig := by
  induction elsewhere with
  | none => exact ⟨reach, rfl⟩
  | @access n middle after side op w _ performed spares ih =>
    obtain ⟨here, ticked⟩ := ih
    refine ⟨here.of_perform performed, ?_⟩
    rcases here.rig_perform side op with ⟨⟨fault, failed⟩, -⟩ | ⟨region, present, inside, -, left⟩
    · rw [performed] at failed
      cases failed
    · rw [performed, Block.rigEvent?_of_not_servesPlayer (spares region (here.mem_map.1 present) inside),
        ticked] at left
      exact left.trans (Clocked.ticks_succ n b.rig).symm

/-- The supervisor can read a register of the ADC any number of times. -/
theorem Reachable.elsewhere (reach : Reachable c b) (n : Nat) : ∃ after, Elsewhere c b n after := by
  induction n with
  | zero => exact ⟨b, .none⟩
  | succ n ih =>
    obtain ⟨middle, elsewhere⟩ := ih
    obtain ⟨here, -⟩ := elsewhere.rig reach
    have holds := here.holds_port (p := .adc0) (Controller.arm_field)
    obtain ⟨answered, -, performed⟩ := here.perform_register holds (.readWord _) rfl
    refine ⟨_, elsewhere.access performed fun region present inside => ?_⟩
    obtain ⟨rfl, -⟩ := here.reaches_register holds (here.mem_map.2 present) inside
    show ¬Block.adc0.ServesPlayer
    decide

/-! ## The player after the transfer -/

/-- A transfer on the DAC fails because a wait runs out, the DAC is handed to the player, and the player is
started. If `arm` is high then, the player never finishes, whatever goes on elsewhere. If it is low, the
player has finished after `(samples + 2) * (spacing + cycles + 8)` accesses elsewhere, and the last sample is
in the DAC. It is low if the transfer gave up on `ready_to_arm`, and high if it gave up on `finished` while
the player was at rest. -/
theorem player_finishes_unless_armed (reach : Reachable c b)
    (calm : b.wf0.registers.value Player.forceStop = 0)
    {spiId arbiterId playerId spiLimit playerLimit : Nat} {spi : SpiDriver} {arbiter : Arbiter}
    {player : WaveformDriver}
    (opened : SpiDriver.ofManifest spiId (b.manifest .supervisor) "dac0" = .ok spi)
    (named : Arbiter.ofManifest arbiterId (b.manifest .supervisor) "dac0" = .ok arbiter)
    (found : WaveformDriver.ofManifest playerId (b.manifest .supervisor) "wf0" ramPlayerMaster
      dacPlayerMaster = .ok player)
    {sender granted : Grant} {frame spacing last : Word} {samples : List Word}
    {tried handed started : Link View} {condition : String} {polls : Nat}
    (fails : ((spi.withPollLimit spiLimit).send sender frame).perform (.connect (.mk .supervisor b)) =
      (.error (.timeout condition polls), tried))
    (acquires : (arbiter.acquire dacPlayerMaster).perform tried = (.ok granted, handed))
    (starts : ((player.withPollLimit playerLimit).start granted samples spacing false).perform handed =
      (.ok (), started))
    (ends : samples.getLast? = some last) :
    (condition = "ready_to_arm" ∨ condition = "finished") ∧
    (condition = "ready_to_arm" → started.bus.board.dac0.device.armed = false) ∧
    (condition = "finished" → tried.bus.board.wf0.AtRest →
      started.bus.board.dac0.device.armed = true) ∧
    ∀ n after, Elsewhere c started.bus.board n after →
      (started.bus.board.dac0.device.armed = true → after.wf0.state ≠ .finished) ∧
      (started.bus.board.dac0.device.armed = false →
        (samples.length + 2) * (spacing.toNat + c.spiCycles + 8) ≤ n →
          after.wf0.state = .finished ∧ after.dac.dac = last &&& Ad5791.dataMask) := by
  obtain rfl := Except.ok.inj ((reach.ofManifest_port .dac0 spiId).symm.trans opened)
  obtain rfl := Except.ok.inj ((reach.ofManifest_arbiter .dac0 arbiterId).symm.trans named)
  obtain rfl := Except.ok.inj ((reach.ofManifest_player playerId _ _).symm.trans found)
  have settled : b.rig.player.Calm := fun forced => by
    rw [show b.rig.player = b.wf0 from rfl, calm] at forced
    cases forced
  obtain ⟨live, on, ⟨owner, refused⟩ | ⟨owned, runsOut⟩⟩ :=
    (meets_send c spiId spiLimit sender frame).error (Link.live_connect ⟨rfl, reach, settled⟩) fails
  · cases refused
  have apart : ¬tried.bus.board.rig.HasDac := fun has =>
    absurd (owned.symm.trans (hasDac_rig.1 has)) (by decide)
  -- whatever is known of `arm` when the transfer failed is known when the player was started
  have follows {arm : Option Bool}
      (known : ∀ high, arm = some high → tried.bus.board.dac0.device.armed = high)
      (rests : arm = some true → tried.bus.board.wf0.AtRest) :
      On c (Started arm samples spacing) started.bus :=
    started_of_lent ⟨live, on.mono fun calm => ⟨apart, calm, known, rests⟩⟩ acquires starts
  refine ⟨runsOut.condition, fun early => ?_, fun late rests => ?_, fun n after elsewhere => ?_⟩
  · subst early
    have begun : On c (Started (some false) samples spacing) started.bus :=
      follows (fun high same => by cases same; exact runsOut.low) fun none => by cases none
    exact begun.holds.known false rfl
  · subst late
    have begun : On c (Started (some true) samples spacing) started.bus :=
      follows (fun high same => by cases same; exact runsOut.high) fun _ => rests
    exact begun.holds.known true rfl
  · have begun : On c (Started none samples spacing) started.bus :=
      follows (fun _ none => by cases none) fun none => by cases none
    obtain ⟨-, ticked⟩ := elsewhere.rig begun.reach
    refine ⟨fun high finished => ?_, fun low enough => ?_⟩
    · have waits := begun.holds.begins.waits high n
      rw [← ticked] at waits
      exact waits finished
    · have played := begun.holds.ends (Reachable.rig begun.reach).1 low ends enough
      rwa [← ticked] at played

/-- The supervisor of a small board tries to send a frame to the DAC, and gives up after one poll. -/
def trySend (b : Board) : Except DriverError Word × Link View :=
  (((Port.dac0.driver (.small 2) 0).withPollLimit 1).send
    ⟨(Port.dac0.driver (.small 2) 0).arbiter, supervisorIndex⟩ 0x300005).perform
      (.connect (.mk .supervisor b))

/-- The DAC of a small board is handed to the player. -/
def handOn (l : Link View) : Except DriverError Grant × Link View :=
  ((Port.dac0.driver (.small 2) 0).arbiter.acquire dacPlayerMaster).perform l

/-- The player of a small board is started with the sample 7. -/
def startPlayer (l : Link View) : Except DriverError Unit × Link View :=
  (((playerDriver (.small 2) 0 ramPlayerMaster dacPlayerMaster).withPollLimit 1).start
    ⟨(Port.dac0.driver (.small 2) 0).arbiter, dacPlayerMaster⟩ [7] 0 false).perform l

theorem live_trySend (reach : Reachable (.small 2) b) :
    Link.Live (On (.small 2) fun _ => True) (trySend b).2 := by
  have writes := writesKeep_reachable (.small 2)
  have exchange (frame : Word) : Keeps (On (.small 2) fun _ => True)
      (((Port.dac0.driver (.small 2) 0).withPollLimit 1).exchange
        ⟨(Port.dac0.driver (.small 2) 0).arbiter, supervisorIndex⟩ frame) :=
    SpiDriver.keeps_exchange (readsKeep_reachable _) (writes _) (writes _) _ frame
  exact SpiDriver.keeps_send (exchange 0x300005) _ (Link.live_connect ⟨rfl, reach, trivial⟩)

theorem reachable_started (reach : Reachable (.small 2) b) :
    Reachable (.small 2) (startPlayer (handOn (trySend b).2).2).2.bus.board := by
  have reads := readsKeep_reachable (.small 2)
  have writes := writesKeep_reachable (.small 2)
  have handed : Link.Live (On (.small 2) fun _ => True) (handOn (trySend b).2).2 :=
    (Arbiter.keeps_connect reads (writes _) dacPlayerMaster).locked _ (live_trySend reach)
  exact (WaveformDriver.keeps_start reads (fun addr _ => writes addr) _ [7] 0 false _ handed).2.reach

/-- The small board after one attempt to send a frame. -/
def triedOnce : Board :=
  (trySend (small 2)).2.bus.board

/-- A second attempt finds the controller busy with the first one, and the player that is started next
plays its sample. -/
theorem player_finishes_after_two_attempts : ∃ tried handed started after,
    Reachable (.small 2) triedOnce ∧ trySend triedOnce = (.error (.timeout "ready_to_arm" 1), tried) ∧
    (∃ g, handOn tried = (.ok g, handed)) ∧ startPlayer handed = (.ok (), started) ∧
    Elsewhere (.small 2) started.bus.board ((1 + 2) * (0 + 2 + 8)) after ∧
    after.wf0.state = .finished ∧ after.dac.dac = 7 := by
  have reach : Reachable (.small 2) triedOnce := (live_trySend (.assembled (assemble_small 2))).2.reach
  have calm : triedOnce.wf0.registers.value Player.forceStop = 0 := by decide +kernel
  have fails : trySend triedOnce = (.error (.timeout "ready_to_arm" 1), (trySend triedOnce).2) :=
    outcome_eq (by decide +kernel)
  have acquires : handOn (trySend triedOnce).2 =
      (.ok ⟨(Port.dac0.driver (.small 2) 0).arbiter, dacPlayerMaster⟩,
        (handOn (trySend triedOnce).2).2) := outcome_eq (by decide +kernel)
  have starts : startPlayer (handOn (trySend triedOnce).2).2 =
      (.ok (), (startPlayer (handOn (trySend triedOnce).2).2).2) := outcome_eq (by decide +kernel)
  obtain ⟨after, elsewhere⟩ := (reachable_started reach).elsewhere 30
  obtain ⟨-, low, -, finishes⟩ := player_finishes_unless_armed reach calm
    (reach.ofManifest_port .dac0 0) (reach.ofManifest_arbiter .dac0 0) (reach.ofManifest_player 0 _ _)
    fails acquires starts rfl
  obtain ⟨finished, code⟩ := (finishes 30 after elsewhere).2 (low rfl) (by decide)
  exact ⟨_, _, _, after, reach, fails, ⟨_, acquires⟩, starts, elsewhere, finished, code⟩

/-- After one attempt the player is started as well, but does not get to play in that time. -/
theorem player_waits_after_one_attempt : ∃ tried handed started after,
    Reachable (.small 2) (small 2) ∧ (small 2).wf0.registers.value Player.forceStop = 0 ∧
    trySend (small 2) = (.error (.timeout "finished" 1), tried) ∧
    (∃ g, handOn tried = (.ok g, handed)) ∧ startPlayer handed = (.ok (), started) ∧
    Elsewhere (.small 2) started.bus.board ((1 + 2) * (0 + 2 + 8)) after ∧
    after.wf0.state ≠ .finished ∧ after.dac.dac ≠ 7 := by
  have reach : Reachable (.small 2) (small 2) := .assembled (assemble_small 2)
  have fails : (trySend (small 2)).1 = .error (.timeout "finished" 1) := by decide +kernel
  have acquires : (handOn (trySend (small 2)).2).1 =
      .ok ⟨(Port.dac0.driver (.small 2) 0).arbiter, dacPlayerMaster⟩ := by decide +kernel
  have starts : (startPlayer (handOn (trySend (small 2)).2).2).1 = .ok () := by decide +kernel
  obtain ⟨after, elsewhere⟩ := (reachable_started reach).elsewhere 30
  obtain ⟨-, ticked⟩ := elsewhere.rig (reachable_started reach)
  have waits : (Clocked.ticks 30 (startPlayer (handOn (trySend (small 2)).2).2).2.bus.board.rig).player.state
        ≠ .finished ∧
      (Clocked.ticks 30 (startPlayer (handOn (trySend (small 2)).2).2).2.bus.board.rig).chip.dac ≠ 7 := by
    decide +kernel
  rw [← ticked] at waits
  exact ⟨_, _, _, after, reach, by decide, outcome_eq fails, ⟨_, outcome_eq acquires⟩,
    outcome_eq starts, elsewhere, waits⟩

end InstrumentBus.Board
