import InstrumentBus.Proofs.Waveform.Handover

/-!
# A player at a standstill

Whatever the player was doing, and whether it was forced to stop or not, it is ready one step after `run` was
cleared (`tick_of_cleared`). It stays so for as long as `run` is not set, and does nothing to its ports
(`Still.tick_eq`). Meanwhile its RAM can be filled word by word (`Halted.stock`) and its settings can be made.
-/

namespace InstrumentBus

/-- One more word takes the place of the first of those that are still to be replaced. -/
theorem set_append_drop {α : Type} {done words : List α} (room : done.length < words.length) (x : α) :
    (done ++ words.drop done.length).set done.length x =
      (done ++ [x]) ++ words.drop (done ++ [x]).length := by
  rw [List.set_append_right _ _ (Nat.le_refl _), Nat.sub_self, List.drop_eq_getElem_cons room,
    List.set_cons_zero, List.length_append, List.length_singleton, List.append_assoc,
    List.singleton_append]

namespace Waveform

namespace Player

variable {p : Player}

/-- The player is ready, and `run` is not set. -/
structure Still (p : Player) : Prop where
  ready : p.state = .ready
  cleared : p.registers.value run = 0

theorem not_mayRun_of_cleared (cleared : p.registers.value run = 0) : ¬p.MayRun := by
  rintro ⟨set, -⟩
  rw [cleared] at set
  cases set

theorem Still.settle (still : p.Still) : p.settle.Still := by
  unfold Player.settle
  split
  · exact ⟨rfl, (value_enter p .ready (by decide) (by decide)).trans still.cleared⟩
  · exact still

section Moves

variable {ρ δ : Type} [Target ρ] [Target δ]

/-- A player at a standstill makes no transaction. -/
theorem Still.tick_eq (still : p.Still) (ram : ρ) (dac : δ) : p.tick ram dac = (p.settle, ram, dac) := by
  refine tick_of_rests ?_ (fun _ => not_mayRun_of_cleared still.cleared) ram dac
  rw [still.ready]
  exact State.noConfusion

theorem Still.tick (still : p.Still) (ram : ρ) (dac : δ) : (p.tick ram dac).1.Still := by
  rw [still.tick_eq]
  exact still.settle

/-- The first step after `run` was cleared leaves the player at a standstill, whatever it was doing. -/
theorem still_tick_of_cleared (cleared : p.registers.value run = 0) (ram : ρ) (dac : δ) :
    (p.tick ram dac).1.Still := by
  have may := not_mayRun_of_cleared cleared
  refine ⟨?_, (value_tick p ram dac (by decide)).trans cleared⟩
  rcases tick_cases p ram dac with ⟨-, starts, -⟩ | ⟨-, plays, -⟩ | ⟨-, -, ticked⟩ | ⟨idle, -, ticked⟩
  · exact absurd starts may
  · exact absurd plays may
  · rw [ticked]
    rfl
  · rw [ticked]
    show p.settle.state = .ready
    unfold settle
    split
    · rfl
    · next stays =>
      cases state : p.state with
      | ready => rfl
      | running => exact absurd state idle
      | finished =>
        have leaves : p.registers.value run ≠ 1 := by
          rw [cleared]
          decide
        exact absurd (.inr ⟨state, leaves⟩) stays

end Moves

/-- A write to another setting leaves a standstill as it is. -/
theorem Still.transact (still : p.Still) {req : Request}
    (beside : ∀ data lanes, req ≠ .write (Layout.offset run) data lanes) : (p.transact req).2.Still :=
  ⟨still.ready,
    (p.registers.value_transactFrom_of_ne_offset .supervisor beside).trans still.cleared⟩

/-- A register of the player is read as it is. -/
theorem transact_read {i : Nat} (inside : i < layout.count) (p : Player) :
    p.transact (.read (Layout.offset i)) = (.acked (p.registers.value i), p) := by
  have sound : layout.Sound := by decide
  rw [transact, RegisterFile.transactFrom_read_offset sound inside]

/-- A player at a standstill says so. -/
theorem Still.value_finishedOrReady (still : p.Still) (sound : p.Sound) :
    p.registers.value finishedOrReady = 1 := by
  rw [sound.atRest, still.ready]
  rfl

end Player

namespace Rig

variable {r : Rig} {cycles : Nat} {words done : List Word} {master : Nat}
  {settings fewer : List (Nat × Word)}

/-- What a halt leaves alone: the words in the RAM of the samples, and the master of the converter. -/
structure Holds (words : List Word) (master : Nat) (r : Rig) : Prop where
  words : r.memory.words.toList = words
  connected : r.dac.switch.active = master

/-- The player is at a standstill, and some of its registers were set. -/
structure Halted (words : List Word) (master : Nat) (settings : List (Nat × Word)) (r : Rig) : Prop where
  holds : Holds words master r
  still : r.player.Still
  set : ∀ i v, (i, v) ∈ settings → i < Player.finishedOrReady ∧ r.player.registers.value i = v

theorem Holds.tick (holds : Holds words master r) : Holds words master r.tick :=
  ⟨by rw [memory_tick]; exact holds.words, (active_move r.clock).2.trans holds.connected⟩

theorem Holds.configure (holds : Holds words master r) (req : Request) :
    Holds words master (r.step (.configure req)) :=
  ⟨holds.words, holds.connected⟩

/-- The step after `run` was cleared halts the player. -/
theorem Holds.halts (holds : Holds words master r) (cleared : r.player.registers.value Player.run = 0) :
    Halted words master [] r.tick :=
  ⟨holds.tick, Player.still_tick_of_cleared cleared r.ram r.clock.dac, fun _ _ none => nomatch none⟩

theorem Halted.weaken (halted : Halted words master settings r) (sub : fewer ⊆ settings) :
    Halted words master fewer r :=
  ⟨halted.holds, halted.still, fun i v listed => halted.set i v (sub listed)⟩

/-- While the player is at a standstill only the controller moves. -/
theorem tick_of_still (still : r.player.Still) : r.tick = { r.clock with player := r.player.settle } :=
  congrArg (fun next : Player × BusSwitch.View Ram × BusSwitch.View (Spi.Controller Ad5791.Chip) =>
    Rig.mk next.1 next.2.1 next.2.2) (still.tick_eq r.ram r.clock.dac)

theorem controller_tick_of_still (still : r.player.Still) : r.tick.controller = r.controller.tick := by
  rw [tick_of_still still]
  rfl

theorem Halted.tick (halted : Halted words master settings r) :
    Halted words master settings r.tick := by
  refine ⟨halted.holds.tick, halted.still.tick r.ram r.clock.dac, fun i v listed => ?_⟩
  obtain ⟨setting, held⟩ := halted.set i v listed
  exact ⟨setting, (setting_tick r setting).trans held⟩

/-- A setting other than `run` is made. -/
theorem Halted.configure (sound : r.Sound cycles) (halted : Halted words master settings r) {i : Nat}
    {f : Field} (found : Player.layout.fields[i]? = some f) (writable : f.access = .readWrite)
    (other : Player.run < i) (setting : i < Player.finishedOrReady) (fresh : i ∉ settings.map Prod.fst)
    (w : Word) :
    Halted words master ((i, w &&& widthMask f.width) :: settings)
      (r.step (.configure (.writeWord (Layout.offset i) w))) := by
  have value (j : Nat) : (r.step (.configure (.writeWord (Layout.offset i) w))).player.registers.value j =
      if j = i then w &&& widthMask f.width else r.player.registers.value j :=
    sound.player.value_put found writable w j
  refine ⟨halted.holds.configure _, ⟨halted.still.ready, ?_⟩, fun j v listed => ?_⟩
  · rw [value, if_neg (Nat.ne_of_lt other)]
    exact halted.still.cleared
  · rcases List.mem_cons.1 listed with here | earlier
    · obtain ⟨rfl, rfl⟩ := Prod.mk.inj here
      exact ⟨setting, by rw [value, if_pos rfl]⟩
    · have beside : j ≠ i := by
        rintro rfl
        exact fresh (List.mem_map.2 ⟨_, earlier, rfl⟩)
      obtain ⟨setting', held⟩ := halted.set j v earlier
      exact ⟨setting', by rw [value, if_neg beside, held]⟩

theorem Halted.selectRam (halted : Halted words master settings r) (req : Request) :
    Halted words master settings (r.step (.selectRam req)) := by
  have memory : (r.step (.selectRam req)).memory = r.memory :=
    BusSwitch.device_transactControl r.ram.switch req
  exact ⟨⟨memory ▸ halted.holds.words, halted.holds.connected⟩, halted.still, halted.set⟩

/-- The connected master writes a word of the RAM. -/
theorem words_write {requester : Nat} (owned : r.ram.switch.active = requester) {addr : Addr} {k : Nat}
    (place : addr.toNat = 4 * k) (w : Word) :
    (r.step (.ram requester (.writeWord addr w))).memory.words = r.memory.words.setIfInBounds k w := by
  have reached : (r.step (.ram requester (.writeWord addr w))).memory =
      (r.memory.transact (.writeWord addr w)).2 := by
    show (r.ram.switch.transact requester (.writeWord addr w)).2.device = _
    rw [← owned, BusSwitch.transact_of_active]
    rfl
  have index : addr.toNat / 4 = k := by omega
  rw [reached]
  show r.memory.words.setIfInBounds (addr.toNat / 4)
    (Word.merge (r.memory.wordAt addr) w Lanes.all.mask) = _
  rw [index, Word.merge_lanes_all]

/-- The next sample takes the place of the first word that is still to be replaced. -/
theorem Halted.stock (halted : Halted (done ++ words.drop done.length) master settings r)
    (room : done.length < words.length) {requester : Nat} (owned : r.ram.switch.active = requester)
    {addr : Addr} (place : addr.toNat = 4 * done.length) (w : Word) :
    Halted ((done ++ [w]) ++ words.drop (done ++ [w]).length) master settings
      (r.step (.ram requester (.writeWord addr w))) := by
  refine ⟨⟨?_, halted.holds.connected⟩, halted.still, halted.set⟩
  rw [words_write owned place, Array.toList_setIfInBounds, halted.holds.words, set_append_drop room]

/-- The player is about to play: it is ready with `run` set, and it has its RAM and its settings. -/
structure Launched (words : List Word) (master : Nat) (settings : List (Nat × Word)) (r : Rig) : Prop where
  holds : Holds words master r
  ready : r.player.state = .ready
  run : r.player.registers.value Player.run = 1
  ram : r.HasRam
  set : ∀ i v, (i, v) ∈ settings → r.player.registers.value i = v

/-- Setting `run` ends a standstill, and changes nothing else. -/
theorem Halted.launch (sound : r.Sound cycles) (halted : Halted words master settings r) (ram : r.HasRam)
    (fresh : Player.run ∉ settings.map Prod.fst) :
    Launched words master settings (r.step (.configure (.writeWord (Layout.offset Player.run) 1))) := by
  have found : Player.layout.fields[Player.run]? = some ⟨"run", 1, .readWrite⟩ := rfl
  have value (j : Nat) :
      (r.step (.configure (.writeWord (Layout.offset Player.run) 1))).player.registers.value j =
      if j = Player.run then 1 &&& widthMask 1 else r.player.registers.value j :=
    sound.player.value_put found rfl 1 j
  refine ⟨halted.holds.configure _, halted.still.ready, ?_, ram, fun j v listed => ?_⟩
  · rw [value, if_pos rfl]
    decide
  · have beside : j ≠ Player.run := by
      rintro rfl
      exact fresh (List.mem_map.2 ⟨_, listed, rfl⟩)
    rw [value, if_neg beside]
    exact (halted.set j v listed).2

/-- At a standstill it is known how `arm` is, whatever was known before the player was halted. -/
theorem Handed.known {arm : Option Bool} (handed : Handed arm r) (still : r.player.Still) {high : Bool}
    (same : arm = some high) : r.controller.armed = high := by
  subst same
  cases high with
  | true => exact handed.leaves.1
  | false =>
    refine Bool.eq_false_iff.2 fun raised => ?_
    cases still.ready.symm.trans (handed.leaves raised).1

/-- A player that was handed the converter and has its RAM and its settings starts as soon as `run` is set. -/
theorem Halted.starts {arm : Option Bool} {samples : List Word} {count spacing : Word} (sound : r.Sound cycles)
    (halted : Halted words master settings r) (handed : Handed arm r) (ram : r.HasRam)
    (fresh : Player.run ∉ settings.map Prod.fst) (stocked : samples <+: words)
    (few : count.toNat = samples.length) (width : (Player.width, count) ∈ settings)
    (spaced : (Player.spacing, spacing) ∈ settings) (once : (Player.doLoop, 0) ∈ settings) :
    Started arm samples spacing (r.step (.configure (.writeWord (Layout.offset Player.run) 1))) := by
  have launched := halted.launch sound ram fresh
  have found : Player.layout.fields[Player.run]? = some ⟨"run", 1, .readWrite⟩ := rfl
  have calm : (r.player.put Player.run 1).Calm := by
    rw [Player.Calm, sound.player.value_put found rfl 1, if_neg (by decide)]
    exact handed.calm
  refine ⟨⟨⟨?_, ram, handed.dac, ⟨launched.run, calm⟩, rfl⟩, launched.ready⟩, fun high same =>
    handed.known halted.still same, ?_, ?_, ?_, ?_⟩
  · have delay : (r.step (.configure (.writeWord (Layout.offset Player.run) 1))).score.cycles = cycles :=
      sound.controller.delay
    rw [delay]
    exact sound.step _
  · rw [launched.holds.words]
    exact stocked
  · exact (congrArg BitVec.toNat (launched.set _ _ width)).trans few
  · exact congrArg BitVec.toNat (launched.set _ _ spaced)
  · have single := launched.set _ _ once
    show decide (_ = 1) = false
    rw [single]
    decide

end Rig

end Waveform

end InstrumentBus
