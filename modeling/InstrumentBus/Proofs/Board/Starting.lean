import InstrumentBus.Proofs.Board.Player
import InstrumentBus.Proofs.Board.Supervising
import InstrumentBus.Proofs.Waveform.Standstill

/-!
# Starting the player of a board

What the supervisor reads is a step of the rig of its board, and what it writes is a step and an event.
So a driver's operation leads from one condition on the rig to another (`On`). The hand-over of the DAC
leads from `Lent` to `Handed` (`meets_handOver`). Whatever the player was doing, it is halted then, its RAM is
turned to the supervisor and filled, the settings are made and the RAM is turned back (`meets_prepare`); none of
these accesses touches what the player was handed (`keepsHanded_prepare`). So the player is `Started` as soon as
`run` is set (`meets_start`).
-/

namespace InstrumentBus.Board

open InstrumentBus.Action (Meets Keeps)
open Transport (ReadsKeep WritesKeep)
open Waveform (Player Rig)
open Waveform.Rig (Halted Handed Holds Lent Started)

variable {c : Config} {b : Board} {v : View} {P Q : Rig → Prop}

theorem outcome_eq {α : Type} {outcome : Except DriverError α × Link View}
    {result : Except DriverError α} (ends : outcome.1 = result) : outcome = (result, outcome.2) :=
  Prod.ext ends rfl

/-! ## Accesses of the supervisor -/

/-- A view of the supervisor on a reachable board whose rig meets a condition. -/
abbrev On (c : Config) (P : Rig → Prop) : View → Prop :=
  Supervises c fun b => P b.rig

/-- What a step of the rig keeps, no read breaks. -/
theorem readsKeep_on (ticks : ∀ r : Rig, r.Sound c.spiCycles → P r → P r.tick) : ReadsKeep (On c P) := by
  rintro addr ⟨side, b⟩ ⟨supervised, reach, holds⟩
  obtain rfl : side = .supervisor := supervised
  refine ⟨rfl, .step (.access .supervisor (.readWord addr)) reach, ?_⟩
  show P (b.perform .supervisor (.readWord addr)).2.rig
  rcases reach.rig_perform .supervisor (.readWord addr) with ⟨-, same⟩ | ⟨region, -, -, -, after⟩
  · rw [same]
    exact holds
  · have still : (b.perform .supervisor (.readWord addr)).2.rig = b.rig.tick :=
      after.trans (region.owner.stepIf_read .supervisor _ b.rig.tick)
    rw [still]
    exact ticks _ (Reachable.rig reach).1 holds

/-- No access of the supervisor leads away from the reachable boards. -/
theorem readsKeep_reachable (c : Config) : ReadsKeep (On c fun _ => True) :=
  readsKeep_on fun _ _ _ => trivial

theorem writesKeep_reachable (c : Config) (addr : Addr) : WritesKeep (On c fun _ => True) addr := by
  rintro w ⟨side, b⟩ ⟨supervised, reach, -⟩
  obtain rfl : side = .supervisor := supervised
  exact ⟨rfl, .step (.access .supervisor (.writeWord addr w)) reach, trivial⟩

/-- A transaction of the supervisor after a step of the board is a step of the rig and its event. -/
theorem rig_supervisorTransact {block : Block} {req : Request} {e : Rig.Event}
    (event : block.rigEvent? .supervisor req = some e) (b : Board) :
    (b.tick.supervisorTransact block req).2.rig = b.rig.tick.step e := by
  have result : b.tick.transact? .supervisor block req = some (b.tick.supervisorTransact block req) := rfl
  rw [rig_transact? result, event, rig_tick]
  rfl

/-- What a step of the rig keeps, a step of the board keeps. -/
theorem of_rigTick (ticks : ∀ r : Rig, r.Sound c.spiCycles → P r → P r.tick) (b : Board)
    (reach : Reachable c b) (holds : P b.rig) : P b.tick.rig := by
  rw [rig_tick]
  exact ticks _ reach.rig.1 holds

/-- What a step and an event lead to holds of the rig after a transaction with that event. -/
theorem of_rigEvent {block : Block} {req : Request} {e : Rig.Event}
    (event : block.rigEvent? .supervisor req = some e)
    (moves : ∀ r : Rig, r.Sound c.spiCycles → P r → Q (r.tick.step e)) (b : Board) (reach : Reachable c b)
    (holds : P b.rig) : Q (b.tick.supervisorTransact block req).2.rig := by
  rw [rig_supervisorTransact event]
  exact moves _ reach.rig.1 holds

section Registers

variable {region : AddressMap.Region Block} {layout : Layout} {i : Nat} {f : Field} {e : Rig.Event}

/-- A driver's `set` is a step of the rig and the event of the write. -/
theorem meets_set
    (here : ∀ {b : Board}, Reachable c b →
      AddressMap.HoldsRegister (b.map .supervisor) region layout i f)
    (writable : f.access = .readWrite) (w : Word)
    (event : region.owner.rigEvent? .supervisor
      (.writeWord (Layout.offset i) (w &&& widthMask f.width)) = some e)
    (moves : ∀ r : Rig, r.Sound c.spiCycles → P r → Q (r.tick.step e)) :
    Meets (On c P) ((refOf region i f).set w) (fun _ => On c Q) fun _ _ => False :=
  Supervises.meets_set here writable w (of_rigEvent event moves)

/-- What a write to a register leads to and the writes of other words do, too, no write to it breaks. -/
theorem writesKeep_register
    (here : ∀ {b : Board}, Reachable c b →
      AddressMap.HoldsRegister (b.map .supervisor) region layout i f)
    {toEvent : Word → Rig.Event}
    (event : ∀ w, region.owner.rigEvent? .supervisor (.writeWord (Layout.offset i) w) = some (toEvent w))
    (moves : ∀ (r : Rig) w, r.Sound c.spiCycles → P r → P (r.tick.step (toEvent w))) :
    WritesKeep (On c P) (region.origin + Layout.offset i) := by
  intro w v on
  obtain ⟨after, written, left⟩ := on.writeWord_register (Q := fun b => P b.rig) (here on.reach) w
    (of_rigEvent (event w) fun r sound before => moves r w sound before)
  rw [written]
  exact left

end Registers

/-! ## The hand-over of the DAC -/

theorem hasDac_rig : b.rig.HasDac ↔ b.owner .dac0 = dacPlayerMaster :=
  eq_comm

theorem hasRam_rig : b.rig.HasRam ↔ b.owner .wf0Ram = ramPlayerMaster :=
  eq_comm

variable {arm : Option Bool}

/-- The converter that the supervisor lent is handed to the player, unless the selection does not take it. -/
theorem meets_handOver (c : Config) (id : Nat) :
    Meets (On c (Lent arm)) ((Port.dac0.driver c id).arbiter.connect dacPlayerMaster)
      (fun _ => On c (Handed arm)) fun _ _ => True := by
  have sets : Meets (On c (Lent arm))
      ((Port.dac0.driver c id).arbiter.selection.set (BitVec.ofNat 32 dacPlayerMaster))
      (fun _ => On c fun r => r.HasDac → Handed arm r) fun _ _ => False :=
    meets_set (fun reach => reach.holds_select .dac0 rfl) rfl _ rfl fun r _ lent dac => lent.handed dac
  have ticks (r : Rig) (sound : r.Sound c.spiCycles) (handed : r.HasDac → Handed arm r)
      (dac : r.tick.HasDac) : Handed arm r.tick :=
    (handed ((Rig.hasDac_tick r).1 dac)).tick sound
  have reads := Supervises.meets_owner (guards_dac0 c id) (of_rigTick ticks)
  exact (Arbiter.meets_connect sets.unfailing reads.unfailing (fun _ _ _ _ => trivial)
    fun _ _ _ _ _ => trivial).mono (fun _ before => before)
      (fun _ _ met => met.2.mono fun left => left.1 (hasDac_rig.2 left.2)) fun _ _ _ => trivial

/-! ## Halting the player -/

section Halting

variable {words : List Word} {master : Nat} {settings : List (Nat × Word)} {i : Nat} {f : Field}

/-- The player answers a read of a register with what it holds. -/
theorem supervisorTransact_setting (found : Player.layout.fields[i]? = some f) (b : Board) :
    b.supervisorTransact playerRegion.owner (.read (Layout.offset i)) =
      (.acked (b.wf0.registers.value i), b) := by
  have inside : i < Player.layout.count := (Array.getElem?_eq_some_iff.1 found).1
  exact congrArg (Prod.map id fun p => { b with wf0 := p }) (b.wf0.transact_read inside)

/-- A driver's `get` of a register of the player gives what it holds one step of the board later. -/
theorem Reachable.get_setting (reach : Reachable c b) (found : Player.layout.fields[i]? = some f) :
    (refOf playerRegion i f).get.perform (View.mk .supervisor b) =
      (.ok (b.tick.wf0.registers.value i &&& widthMask f.width), View.mk .supervisor b.tick) := by
  obtain ⟨answered, result, read⟩ := reach.readWord_register (reach.holds_player found)
  obtain rfl := Option.some.inj (result.symm.trans (congrArg some (supervisorTransact_setting found b.tick)))
  exact Action.perform_bind_of_ok (Action.perform_ofAccess_of_ok read) _

/-- So it gives what the register holds after one more step of the rig. -/
theorem meets_getSetting (found : Player.layout.fields[i]? = some f) {Q : Word → Rig → Prop}
    (next : ∀ r : Rig, r.Sound c.spiCycles → P r →
      Q (r.tick.player.registers.value i &&& widthMask f.width) r.tick) :
    Meets (On c P) (refOf playerRegion i f).get (fun w => On c (Q w)) fun _ _ => False := by
  refine Supervises.meets_get (fun reach => reach.holds_player found) fun b reach holds => ?_
  rw [supervisorTransact_setting found, rig_tick]
  exact next b.rig reach.rig.1 holds

/-- Clearing `run` breaks nothing that a halt leaves alone. -/
theorem meets_clearRun :
    Meets (On c (Holds words master)) ((refOf playerRegion Player.run ⟨"run", 1, .readWrite⟩).set 0)
      (fun _ => On c fun r => Holds words master r ∧ r.player.registers.value Player.run = 0)
      fun _ _ => False := by
  refine meets_set (fun reach => reach.holds_player rfl) rfl 0 rfl fun r sound holds => ?_
  refine ⟨holds.tick.configure _, ?_⟩
  have found : Player.layout.fields[Player.run]? = some ⟨"run", 1, .readWrite⟩ := rfl
  have value := sound.tick.player.value_put found rfl (0 &&& widthMask 1) Player.run
  rw [if_pos rfl] at value
  refine value.trans ?_
  decide

/-- A driver's `set` of a setting other than `run`, one step of the rig before which halts the player or
leaves it at a standstill. -/
theorem meets_setting (found : Player.layout.fields[i]? = some f) (writable : f.access = .readWrite)
    (other : Player.run < i) (setting : i < Player.finishedOrReady) (fresh : i ∉ settings.map Prod.fst)
    (halts : ∀ r, P r → Halted words master settings r.tick) (w : Word) :
    Meets (On c P) ((refOf playerRegion i f).set w)
      (fun _ => On c (Halted words master ((i, w &&& widthMask f.width) :: settings)))
      fun _ _ => False := by
  refine meets_set (fun reach => reach.holds_player found) writable w rfl fun r sound before => ?_
  have set := (halts r before).configure sound.tick found writable other setting fresh
    (w &&& widthMask f.width)
  rwa [BitVec.and_assoc, BitVec.and_self] at set

/-- From any state `run` and `do_loop` are cleared, and the first poll finds the player at a standstill. -/
theorem meets_halt (c : Config) (id ramMaster dacMaster limit : Nat) :
    Meets (On c (Holds words master)) ((playerDriver c id ramMaster dacMaster).withPollLimit limit).halt
      (fun _ => On c (Halted words master [(Player.doLoop, 0)])) fun _ _ => limit = 0 := by
  have doLoop : Player.layout.fields[Player.doLoop]? = some ⟨"do_loop", 1, .readWrite⟩ := rfl
  have flag : Player.layout.fields[Player.finishedOrReady]? = some ⟨"finished_or_ready", 1, .readOnly⟩ :=
    rfl
  refine meets_clearRun.unfailing.bind fun _ => ?_
  refine (meets_setting doLoop rfl (by decide) (by decide) List.not_mem_nil
    (fun r cleared => cleared.1.halts cleared.2) 0).unfailing.bind fun _ => ?_
  rcases Nat.eq_zero_or_pos limit with none | polls
  · subst none
    exact Action.meets_throw fun _ _ => rfl
  refine Meets.unfailing (Meets.waitFor ?_ _ polls)
  refine (meets_getSetting flag (Q := fun w r => w = 1 ∧ Halted words master [(Player.doLoop, 0)] r)
    fun r sound halted => ⟨?_, halted.tick⟩).bind fun w => ?_
  · rw [halted.tick.still.value_finishedOrReady sound.tick.player]
    decide
  · exact Action.meets_pure fun v met => ⟨beq_iff_eq.2 met.holds.1, met.mono And.right⟩

end Halting

/-! ## The samples -/

theorem guards_samples (c : Config) (id ramMaster dacMaster : Nat) :
    Guards c .wf0Ram (playerDriver c id ramMaster dacMaster).ram := by
  refine ⟨_, _, _, rfl, rfl, rfl, fun {b} reach => ⟨reach.holds_samplesSelect, ?_⟩⟩
  exact reach.rig.2.ram.2

/-- The RAM of the samples keeps its size. -/
theorem Reachable.size_memory (reach : Reachable c b) :
    b.rig.memory.words.size = (c.ramBytes.toNat + 3) / 4 := by
  refine reach.invariant ?assembled ?tick ?transact (fun _ size => size) fun _ size => size
  case assembled =>
    intro b assembled
    obtain ⟨_, _, -, -, -, rfl⟩ := assemble_eq_ok_iff.1 assembled
    exact Array.size_replicate
  case tick =>
    intro b size
    rwa [rig_tick, Rig.memory_tick]
  case transact =>
    intro b size side block req answered result
    rwa [rig_transact? result, Rig.size_memory_stepIf]

/-- A word that the supervisor writes among the samples is a step of the rig and a write of its RAM. -/
theorem On.writeWord_sample (on : On c P v) {i : Nat} (within : i < c.ramBytes.toNat / 4) (w : Word)
    (moves : ∀ (r : Rig) (addr : Addr), r.Sound c.spiCycles → P r → i < r.memory.words.size →
      addr.toNat = 4 * i → Q (r.tick.step (.ram supervisorMaster (.writeWord addr w)))) :
    ∃ after, Transport.writeWord v ((0x4000 : Addr) + 4 * BitVec.ofNat 32 i) w = (.ok (), after) ∧
      On c Q after := by
  have present : samplesRegion c ∈ (v.board.map .supervisor).regions := on.reach.mem_samplesRegion
  obtain ⟨base, aligned, place⟩ := on.reach.mem_samples within
  have inside : (0x4000 : Addr) + 4 * BitVec.ofNat 32 i ∈ samplesRegion c := by
    rwa [Addr.wordBase_of_aligned aligned] at base
  have offset : ((samplesRegion c).offsetOf (0x4000 + 4 * BitVec.ofNat 32 i)).toNat = 4 * i := by
    rw [AddressMap.Region.toNat_offsetOf ((on.reach.arranged .supervisor).placed present) inside, place]
    exact Nat.add_sub_cancel_left 0x4000 _
  have roomy : On c (fun r => P r ∧ i < r.memory.words.size) v :=
    on.mono fun before => ⟨before, by rw [on.reach.size_memory]; omega⟩
  exact roomy.writeWord (Q := fun b => Q b.rig) present inside aligned w (of_rigEvent rfl
    fun r sound (before : P r ∧ _) => moves r _ sound before.1 before.2 offset)

section Samples

variable {words samples done : List Word} {master : Nat} {settings : List (Nat × Word)}

/-- While the player is at a standstill its RAM can be turned to either of its masters. -/
theorem meets_turnRam (id ramMaster dacMaster : Nat) {user : Nat} (named : user < wf0RamMasters.size) :
    Meets (On c (Halted words master settings))
      ((playerDriver c id ramMaster dacMaster).ram.connect user)
      (fun _ => On c fun r => Halted words master settings r ∧ r.ram.switch.active = user)
      fun _ _ => False := by
  have few : user < 2 := named
  have whole : (BitVec.ofNat 32 user &&& widthMask 1 &&& Lanes.all.mask).toNat = user := by
    have either : user = 0 ∨ user = 1 := by omega
    rcases either with rfl | rfl <;> decide
  have sets : Meets (On c fun r => Halted words master settings r ∧ r.Seated 2 3)
      ((playerDriver c id ramMaster dacMaster).ram.selection.set (BitVec.ofNat 32 user))
      (fun _ => On c fun r => Halted words master settings r ∧ r.ram.switch.active = user)
      fun _ _ => False := by
    refine meets_set (fun reach => reach.holds_samplesSelect) rfl _ rfl fun r _ before => ?_
    refine ⟨before.1.tick.selectRam _, ?_⟩
    obtain ⟨count, current⟩ := before.2.tick.ram
    refine (BusSwitch.active_transactControl (count ▸ current) _).trans ?_
    unfold BusSwitch.ownerAfter
    dsimp only [Request.writeWord]
    rw [if_pos (by decide), whole, count, if_pos few]
  have steady (r : Rig) (_ : r.Sound c.spiCycles)
      (met : Halted words master settings r ∧ r.ram.switch.active = user) :
      Halted words master settings r.tick ∧ r.tick.ram.switch.active = user := by
    rw [Rig.ram_tick]
    exact ⟨met.1.tick, met.2⟩
  have reads := Supervises.meets_owner (guards_samples c id ramMaster dacMaster) (of_rigTick steady)
  have connects := Arbiter.meets_connect sets reads
    (fun large => absurd large (Nat.not_le.2 (Nat.lt_trans few (by decide))))
    fun owner _ v other met => other (met.holds.2.symm.trans met.holds.1.2)
  exact connects.mono (fun v on => on.mono fun halted => ⟨halted, on.reach.rig.2⟩)
    (fun _ _ met => met.2.mono And.left) fun _ _ none => none

/-- The player is at a standstill, the supervisor has its RAM, and some words took the place of the first ones
there. -/
structure Filling (words : List Word) (master : Nat) (settings : List (Nat × Word)) (done : List Word)
    (r : Rig) : Prop where
  halted : Halted (done ++ words.drop done.length) master settings r
  connected : r.ram.switch.active = supervisorMaster

theorem On.writeWord_next (on : On c (Filling words master settings done) v)
    (room : done.length < c.ramBytes.toNat / 4) (w : Word) :
    ∃ after, Transport.writeWord v ((0x4000 : Addr) + 4 * BitVec.ofNat 32 done.length) w = (.ok (), after) ∧
      On c (Filling words master settings (done ++ [w])) after := by
  refine on.writeWord_sample room w fun r addr _ filling more place => ?_
  obtain ⟨halted, connected⟩ := filling
  have still : r.tick.ram.switch.active = supervisorMaster := by
    rw [Rig.ram_tick]
    exact connected
  have left : done.length < words.length := by
    rw [← Array.length_toList, halted.holds.words, List.length_append, List.length_drop] at more
    omega
  exact ⟨halted.tick.stock left still place w, (BusSwitch.active_transact _ _ _).trans still⟩

theorem On.writeWords_next {more : List Word} (on : On c (Filling words master settings done) v)
    (fit : done.length + more.length ≤ c.ramBytes.toNat / 4) :
    ∃ after, Transport.writeWords v ((0x4000 : Addr) + 4 * BitVec.ofNat 32 done.length) more =
        (.ok (), after) ∧ On c (Filling words master settings (done ++ more)) after := by
  induction more generalizing done v with
  | nil =>
    rw [List.append_nil]
    exact ⟨v, rfl, on⟩
  | cons w more ih =>
    rw [List.length_cons] at fit
    obtain ⟨middle, first, filled⟩ := on.writeWord_next (by omega) w
    have next : (0x4000 : Addr) + 4 * BitVec.ofNat 32 done.length + 4 =
        0x4000 + 4 * BitVec.ofNat 32 (done ++ [w]).length := by
      rw [List.length_append, List.length_singleton, BitVec.ofNat_add]
      bv_omega
    obtain ⟨after, rest, on⟩ := ih filled (by rw [List.length_append, List.length_singleton]; omega)
    rw [List.append_assoc, List.singleton_append] at on
    refine ⟨after, ?_, on⟩
    rw [Transport.writeWords, first]
    dsimp only
    rw [next, rest]

/-- The driver writes all samples, from the start of their RAM on. -/
theorem meets_fill (fit : samples.length ≤ c.ramBytes.toNat / 4) :
    Meets (On c (Filling words master settings []))
      (Action.ofAccess fun v : View => Transport.writeWords v (0x4000 : Addr) samples)
      (fun _ => On c (Filling words master settings samples)) fun _ _ => False := by
  refine .of_perform fun v on => ?_
  have room : ([] : List Word).length + samples.length ≤ c.ramBytes.toNat / 4 := by
    rwa [List.length_nil, Nat.zero_add]
  obtain ⟨after, written, filled⟩ := on.writeWords_next room
  exact .inl ⟨(), after, Action.perform_ofAccess_of_ok written, filled⟩

end Samples

/-! ## The start -/

section Start

variable {words samples : List Word} {master : Nat}

/-- The settings with which the player plays, as its registers hold them. -/
def settingsFor (samples : List Word) (spacing : Word) (loop : Bool) : List (Nat × Word) :=
  [(Player.doLoop, (if loop then 1 else 0) &&& widthMask 1), (Player.spacing, spacing &&& widthMask 32),
    (Player.width, BitVec.ofNat 32 samples.length &&& widthMask 16)]

/-- The number of samples fits its register. -/
theorem toNat_count {samples : List Word} (few : samples.length ≤ WaveformDriver.maxSamples) :
    (BitVec.ofNat 32 samples.length &&& widthMask 16).toNat = samples.length := by
  rw [WaveformDriver.maxSamples] at few
  have short : (BitVec.ofNat 32 samples.length).toNat = samples.length := by
    rw [BitVec.toNat_ofNat]
    omega
  rw [toNat_and_widthMask_of_lt (by rw [short]; omega), short]

theorem run_not_mem_settingsFor (samples : List Word) (spacing : Word) (loop : Bool) :
    Player.run ∉ (settingsFor samples spacing loop).map Prod.fst := by
  show Player.run ∉ [Player.doLoop, Player.spacing, Player.width]
  decide

variable (c) (id dacMaster limit : Nat)

/-- Whatever the player was doing, it is prepared to play, if it is polled at all. -/
theorem meets_prepare (spacing : Word) (loop : Bool) (fit : samples.length ≤ c.ramBytes.toNat / 4) :
    Meets (On c (Holds words master))
      (((playerDriver c id ramPlayerMaster dacMaster).withPollLimit limit).prepare samples spacing loop)
      (fun _ => On c fun r => Halted (samples ++ words.drop samples.length) master
        (settingsFor samples spacing loop) r ∧ r.HasRam)
      fun _ _ => limit = 0 := by
  have width : Player.layout.fields[Player.width]? = some ⟨"wform_width", 16, .readWrite⟩ := rfl
  have spaced : Player.layout.fields[Player.spacing]? = some ⟨"timer_spacing", 32, .readWrite⟩ := rfl
  have looped : Player.layout.fields[Player.doLoop]? = some ⟨"do_loop", 1, .readWrite⟩ := rfl
  refine (meets_halt c id ramPlayerMaster dacMaster limit).bind fun _ => ?_
  -- Nothing is asked of the settings any more, since all of them are made again.
  have first : supervisorIndex < wf0RamMasters.size := by decide
  refine ((meets_turnRam id ramPlayerMaster dacMaster first).weaken fun v on => on.mono fun halted =>
    (halted.weaken (List.nil_subset _) : Halted words master [] _)).unfailing.bind fun _ => ?_
  refine ((meets_fill fit).weaken fun v on =>
    on.mono fun turned => ⟨turned.1, turned.2⟩).unfailing.bind fun _ => ?_
  refine ((meets_setting width rfl (by decide) (by decide) List.not_mem_nil
    (fun _ halted => halted.tick) _).weaken fun v on => on.mono Filling.halted).unfailing.bind fun _ => ?_
  refine (meets_setting spaced rfl (by decide) (by decide) (by show Player.spacing ∉ [Player.width]; decide)
    (fun _ halted => halted.tick) _).unfailing.bind fun _ => ?_
  refine (meets_setting looped rfl (by decide) (by decide)
    (by show Player.doLoop ∉ [Player.spacing, Player.width]; decide)
    (fun _ halted => halted.tick) _).unfailing.bind fun _ => ?_
  have second : ramPlayerMaster < wf0RamMasters.size := by decide
  refine (meets_turnRam id ramPlayerMaster dacMaster second).unfailing.bind fun _ => ?_
  exact Action.meets_pure fun v on => on.mono fun turned => ⟨turned.1, hasRam_rig.2 turned.2⟩

/-- No access of these touches what the player was handed. -/
theorem keepsHanded_prepare (fit : samples.length ≤ min (c.ramBytes.toNat / 4) WaveformDriver.maxSamples)
    (spacing : Word) (loop : Bool) :
    Keeps (On c (Handed arm))
      (((playerDriver c id ramPlayerMaster dacMaster).withPollLimit limit).prepare samples spacing loop) := by
  have reads : ReadsKeep (On c (Handed arm)) := readsKeep_on fun _ sound handed => handed.tick sound
  have clears : Meets (On c (Handed arm)) ((refOf playerRegion Player.run ⟨"run", 1, .readWrite⟩).set 0)
      (fun _ => On c (Handed arm)) fun _ _ => False :=
    meets_set (fun reach => reach.holds_player rfl) rfl 0 rfl fun r sound handed =>
      (handed.tick sound).clear sound.tick
  have setting {i : Nat} {f : Field} (found : Player.layout.fields[i]? = some f)
      (writable : f.access = .readWrite) (other : Player.forceStop < i) :
      WritesKeep (On c (Handed arm)) (refOf playerRegion i f).addr :=
    writesKeep_register (fun reach => reach.holds_player found) (fun _ => rfl) fun r w sound handed =>
      (handed.tick sound).set sound.tick found writable other w
  refine WaveformDriver.keeps_prepare reads (Action.keeps_iff_meets.2 clears.unfailing) ?_ fit spacing loop
  rintro addr (rfl | rfl | rfl | rfl | ⟨i, within, rfl⟩)
  · exact setting (f := ⟨"do_loop", 1, .readWrite⟩) rfl rfl (by decide)
  · exact setting (f := ⟨"wform_width", 16, .readWrite⟩) rfl rfl (by decide)
  · exact setting (f := ⟨"timer_spacing", 32, .readWrite⟩) rfl rfl (by decide)
  · exact writesKeep_register (fun reach => reach.holds_samplesSelect) (fun _ => rfl) fun r w sound handed =>
      (handed.tick sound).selectRam _
  · intro w v on
    have inside : i < c.ramBytes.toNat / 4 := Nat.lt_of_lt_of_le within (Nat.min_le_left _ _)
    obtain ⟨after, written, left⟩ := on.writeWord_sample (Q := Handed arm) inside w
      fun r addr sound handed _ _ => (handed.tick sound).ram _ _
    have found : Transport.writeWord v _ w = (.ok (), after) := written
    exact found ▸ left

/-- What was in the RAM of the samples and who has the DAC does not matter. -/
theorem meets_prepareHanded (fit : samples.length ≤ min (c.ramBytes.toNat / 4) WaveformDriver.maxSamples)
    (spacing : Word) (loop : Bool) :
    Meets (On c (Handed arm))
      (((playerDriver c id ramPlayerMaster dacMaster).withPollLimit limit).prepare samples spacing loop)
      (fun _ => On c fun r => Handed arm r ∧ r.HasRam ∧
        ∃ rest master, Halted (samples ++ rest) master (settingsFor samples spacing loop) r)
      fun _ _ => limit = 0 := by
  have prepares (held : List Word × Nat) :
      Meets (fun v => On c (Holds held.1 held.2) v ∧ On c (Handed arm) v)
        (((playerDriver c id ramPlayerMaster dacMaster).withPollLimit limit).prepare samples spacing loop)
        (fun _ => On c fun r => Handed arm r ∧ r.HasRam ∧
          ∃ rest master, Halted (samples ++ rest) master (settingsFor samples spacing loop) r)
        fun _ _ => limit = 0 := by
    have keeps : Keeps (On c (Handed arm)) _ := keepsHanded_prepare c id dacMaster limit fit spacing loop
    refine ((meets_prepare c id dacMaster limit spacing loop (Nat.le_min.1 fit).1).and_keeps keeps).mono
      (fun _ before => before) (fun _ v met => ?_) fun _ _ met => met.1
    exact met.1.mono fun prepared => ⟨met.2.holds, prepared.2, _, _, prepared.1⟩
  exact (Meets.of_forall prepares).weaken fun v on =>
    ⟨(v.board.rig.memory.words.toList, v.board.rig.dac.switch.active), on.mono fun _ => ⟨rfl, rfl⟩, on⟩

/-- A player that was handed the DAC and is started plays the samples once from then on. -/
theorem meets_start (g : Grant) (samples : List Word) (spacing : Word) :
    Meets (Link.Live (On c (Handed arm)))
      (((playerDriver c id ramPlayerMaster dacMaster).withPollLimit limit).start g samples spacing false)
      (fun _ => Link.Live (On c (Started arm samples spacing))) fun _ _ => True := by
  unfold WaveformDriver.start
  dsimp only
  split
  · exact .of_perform fun l _ => .inr ⟨_, l, rfl, trivial⟩
  split
  · exact .of_perform fun l _ => .inr ⟨_, l, rfl, trivial⟩
  · next room =>
    have fit : samples.length ≤ min (c.ramBytes.toNat / 4) WaveformDriver.maxSamples := Nat.le_of_not_lt room
    have reads : ReadsKeep (On c (Handed arm)) := readsKeep_on fun _ sound handed => handed.tick sound
    have checks := Action.keeps_iff_meets.1 (Arbiter.keeps_check reads g.arbiter g dacMaster)
    refine Meets.ignoring_errors (Meets.locked (E := fun _ _ => True) ?_)
    refine checks.ignoring_errors.bind fun _ => ?_
    refine (meets_prepareHanded c id dacMaster limit fit spacing false).ignoring_errors.bind fun _ => ?_
    refine (meets_set (fun reach => reach.holds_player rfl) rfl 1 rfl fun r sound before => ?_).unfailing
    obtain ⟨handed, ram, rest, master, halted⟩ := before
    have once : (Player.doLoop, 0) ∈ settingsFor samples spacing false := .head _
    have spaced : (Player.spacing, spacing) ∈ settingsFor samples spacing false := by
      rw [settingsFor, and_widthMask_word]
      exact .tail _ (.head _)
    have width : (Player.width, BitVec.ofNat 32 samples.length &&& widthMask 16) ∈
        settingsFor samples spacing false := .tail _ (.tail _ (.head _))
    exact halted.tick.starts sound.tick (handed.tick sound) ((Rig.hasRam_tick r).2 ram)
      (run_not_mem_settingsFor samples spacing false) (List.prefix_append samples rest)
      (toNat_count (Nat.le_min.1 fit).2) width spaced once

end Start

end InstrumentBus.Board
