import InstrumentBus.Proofs.Board.Rig
import InstrumentBus.Proofs.Board.Serial
import InstrumentBus.Proofs.Driver.Triple

/-!
# What an exchange leaves behind

An exchange on the DAC's controller may end early: the check of its grant fails, or one of its two waits
runs out. The supervisor is still connected then, and `arm` is low after the first wait and high after the
second (`meets_exchange`). All that an exchange does to the frame of the controller it does while no
session is open, so an exchange keeps what reads, writes to `arm` and such loads keep. The transport may
carry more than the board, as long as its word accesses are those of the supervisor (`Fronts`).
-/

namespace InstrumentBus.Board

open InstrumentBus.Action (Meets Keeps)
open Spi (Controller)
open Transport (ReadsKeep WritesKeep)

variable {c : Config} {b : Board} {τ : Type} [Transport τ]

/-- While `I` holds, the word accesses on a transport are those of the supervisor to a reachable board. -/
structure Fronts (c : Config) (board : τ → Board) (I : τ → Prop) : Prop where
  reach : ∀ {t}, I t → Reachable c (board t)
  readWord : ∀ {t} (addr : Addr), I t → Transport.readWord (View.mk .supervisor (board t)) addr =
    (Transport.readWord t addr).map id fun t => View.mk .supervisor (board t)
  writeWord : ∀ {t} (addr : Addr) (w : Word), I t →
    Transport.writeWord (View.mk .supervisor (board t)) addr w =
      (Transport.writeWord t addr w).map id fun t => View.mk .supervisor (board t)

/-- A view of the supervisor fronts its board. -/
theorem fronts_view {I : View → Prop} (supervised : ∀ v, I v → v.side = .supervisor ∧ Reachable c v.board) :
    Fronts c View.board I := by
  refine ⟨fun now => (supervised _ now).2, ?_, ?_⟩
  · rintro ⟨side, b⟩ addr now
    obtain rfl : side = .supervisor := (supervised _ now).1
    rfl
  · rintro ⟨side, b⟩ addr w now
    obtain rfl : side = .supervisor := (supervised _ now).1
    rfl

namespace Fronts

variable {board : τ → Board} {I : τ → Prop} (fronts : Fronts c board I) {t : τ}
include fronts

theorem readWord_of_view {addr : Addr} {w : Word} {after : Board} (now : I t)
    (viewed : Transport.readWord (View.mk .supervisor (board t)) addr =
      (.ok w, View.mk .supervisor after)) :
    ∃ t', Transport.readWord t addr = (.ok w, t') ∧ board t' = after := by
  rw [fronts.readWord addr now] at viewed
  rcases outcome : Transport.readWord t addr with ⟨r, t'⟩
  rw [outcome] at viewed
  obtain ⟨rfl, left⟩ := Prod.mk.inj viewed
  exact ⟨t', rfl, congrArg View.board left⟩

theorem writeWord_of_view {addr : Addr} {w : Word} {after : Board} (now : I t)
    (viewed : Transport.writeWord (View.mk .supervisor (board t)) addr w =
      (.ok (), View.mk .supervisor after)) :
    ∃ t', Transport.writeWord t addr w = (.ok (), t') ∧ board t' = after := by
  rw [fronts.writeWord addr w now] at viewed
  rcases outcome : Transport.writeWord t addr w with ⟨r, t'⟩
  rw [outcome] at viewed
  obtain ⟨rfl, left⟩ := Prod.mk.inj viewed
  exact ⟨t', rfl, congrArg View.board left⟩

end Fronts

/-! ## Selections -/

/-- An arbiter whose register is the selection in front of a device, which holds the index of its owner. -/
structure Guards (c : Config) (d : Shared) (arbiter : Arbiter) : Prop where
  leads : ∃ region layout f, arbiter.selection = refOf region 0 f ∧ region.owner = d.selectBlock ∧
    f.access = .readWrite ∧ ∀ {b : Board}, Reachable c b →
      AddressMap.HoldsRegister (b.map .supervisor) region layout 0 f ∧ b.owner d < 2 ^ f.width

theorem guards_dac0 (c : Config) (id : Nat) : Guards c .dac0 (Port.dac0.driver c id).arbiter := by
  refine ⟨_, _, _, rfl, rfl, rfl, fun {b} reach => ⟨reach.holds_select .dac0 rfl, ?_⟩⟩
  have few : b.owner .dac0 < 3 := reach.rig.2.dac.2
  exact BusSwitch.lt_two_pow_selectionWidth few

/-- The register of the arbiter holds the owner of the device. -/
theorem Guards.readWord {d : Shared} {arbiter : Arbiter} (guards : Guards c d arbiter)
    (reach : Reachable c b) :
    ∃ w, Transport.readWord (View.mk .supervisor b) arbiter.selection.addr =
        (.ok w, View.mk .supervisor b.tick) ∧
      (w &&& widthMask arbiter.selection.width).toNat = b.owner d := by
  obtain ⟨region, layout, f, selects, block, -, here⟩ := guards.leads
  have ticked : Reachable c b.tick := .step .tick reach
  obtain ⟨answered, result, viewed⟩ := reach.readWord_register (here reach).1
  obtain ⟨w, connected, answers⟩ := transact?_select b.tick d
  rw [block] at result
  obtain rfl : (.acked w, b.tick) = answered := Option.some.inj (answers.symm.trans result)
  rw [← show arbiter.selection.addr = region.origin + Layout.offset 0 by rw [selects]; rfl] at viewed
  refine ⟨w, viewed, ?_⟩
  have fits : w.toNat < 2 ^ arbiter.selection.width := by
    rw [connected, show arbiter.selection.width = f.width by rw [selects]; rfl]
    exact (here ticked).2
  rw [toNat_and_widthMask_of_lt fits, connected, owner_tick]

variable {board : τ → Board} {I : τ → Prop}

/-- The driver's read of a selection gives the owner. -/
theorem Fronts.meets_owner (fronts : Fronts c board I) (reads : ReadsKeep I) {d : Shared}
    {arbiter : Arbiter} (guards : Guards c d arbiter) :
    Meets I arbiter.owner (fun owner t => I t ∧ (board t).owner d = owner) fun _ _ => False := by
  apply Meets.of_perform
  intro t now
  obtain ⟨w, viewed, owned⟩ := guards.readWord (fronts.reach now)
  obtain ⟨after, read, left⟩ := fronts.readWord_of_view now viewed
  have kept : I after := by
    have kept := reads arbiter.selection.addr t now
    rwa [read] at kept
  refine .inl ⟨_, after, Arbiter.perform_owner_of_readWord read, kept, ?_⟩
  rw [left, owner_tick, owned]

/-- A grant that passes the check shows that the supervisor is connected. -/
theorem Fronts.meets_check (fronts : Fronts c board I) (reads : ReadsKeep I) (id : Nat) (g : Grant) :
    Meets I ((Port.dac0.driver c id).arbiter.check g supervisorIndex)
      (fun _ t => I t ∧ (board t).owner .dac0 = supervisorMaster)
      fun e t => I t ∧ ∃ owner, e = .notOwner "dac0" owner supervisorIndex := by
  refine (fronts.meets_owner reads (guards_dac0 c id)).unfailing.bind fun owner => ?_
  split
  · next passes => exact Action.meets_pure fun t met => ⟨met.1, met.2.trans passes.2.2⟩
  · exact Action.meets_throw fun t met => ⟨met.1, owner, rfl⟩

/-! ## Registers of the controller -/

/-- The supervisor owns the DAC, and its controller meets a condition. -/
structure Owns (board : τ → Board) (I : τ → Prop) (P : Controller Ad5791.Chip → Prop) (t : τ) : Prop where
  kept : I t
  owned : (board t).owner .dac0 = supervisorMaster
  holds : P (board t).dac0.device

namespace Fronts

variable (fronts : Fronts c board I) {P Q : Controller Ad5791.Chip → Prop} {i : Nat} {f : Field}
  (found : (Controller.layout Ad5791.frameWidth).fields[i]? = some f)
include fronts found

theorem meets_get (reads : ReadsKeep I) {Q : Word → Controller Ad5791.Chip → Prop}
    (tick : ∀ k : Controller Ad5791.Chip, k.Sound Ad5791.frameWidth c.spiCycles → P k →
      Q (k.tick.registers.value i) k.tick) :
    Meets (Owns board I P) (refOf (Port.dac0.region c) i f).get (fun w => Owns board I (Q w))
      fun _ _ => False := by
  apply Meets.of_perform
  rintro t ⟨now, owned, holds⟩
  have leads : Leads c .dac0 (board t) (board t).dac0.device := ⟨fronts.reach now, owned, rfl⟩
  obtain ⟨_, viewed, left⟩ := leads.readWord found
  obtain ⟨after, read, rfl⟩ := fronts.readWord_of_view now viewed
  have kept : I after := by
    have here := reads ((Port.dac0.region c).origin + Layout.offset i) t now
    rwa [read] at here
  have got : (refOf (Port.dac0.region c) i f).get.perform t = _ :=
    RegisterRef.perform_get_of_readWord read
  have within := left.sound.fits.value_and_widthMask (left.sound.field found)
  rw [show (refOf (Port.dac0.region c) i f).width = f.width from rfl, within] at got
  have ticked : (board after).dac0.device = (board t).dac0.device.tick := left.controller
  exact .inl ⟨_, after, got, kept, left.owned, ticked ▸ tick _ leads.sound holds⟩

theorem meets_set (writable : f.access = .readWrite) (w : Word)
    (writes : ∀ t, Owns board I P t → I (Transport.writeWord t
      ((Port.dac0.region c).origin + Layout.offset i) (w &&& widthMask f.width)).2)
    (tick : ∀ k : Controller Ad5791.Chip, k.Sound Ad5791.frameWidth c.spiCycles → P k →
      Q (k.tick.put i w)) :
    Meets (Owns board I P) ((refOf (Port.dac0.region c) i f).set w) (fun _ => Owns board I Q)
      fun _ _ => False := by
  apply Meets.of_perform
  intro t before
  obtain ⟨now, owned, holds⟩ := before
  have leads : Leads c .dac0 (board t) (board t).dac0.device := ⟨fronts.reach now, owned, rfl⟩
  obtain ⟨_, viewed, left⟩ := leads.writeWord found (w &&& widthMask f.width)
  obtain ⟨after, written, rfl⟩ := fronts.writeWord_of_view now viewed
  have kept : I after := by
    have here := writes t ⟨now, owned, holds⟩
    rwa [written] at here
  have whole := leads.tick.sound.put_and_widthMask (leads.tick.sound.field found) w
  rw [whole] at left
  have ticked : (board after).dac0.device = (board t).dac0.device.tick.put i w := left.controller
  exact .inl ⟨(), after, RegisterRef.perform_set_of_granted (checkWritable_refOf writable) written, kept, left.owned,
    ticked ▸ tick _ leads.sound holds⟩

/-- A poll of a register, and what a controller is known to be after a poll that hits. -/
theorem meets_poll (reads : ReadsKeep I) {Hit : Controller Ad5791.Chip → Prop}
    (tick : ∀ k : Controller Ad5791.Chip, k.Sound Ad5791.frameWidth c.spiCycles → P k →
      P k.tick ∧ (k.tick.registers.value i = 1 → Hit k.tick)) :
    Meets (Owns board I P) ((refOf (Port.dac0.region c) i f).reads 1)
      (fun held t => if held = true then Owns board I Hit t else Owns board I P t)
      fun _ _ => False := by
  refine (fronts.meets_get found reads (Q := fun w k => P k ∧ (w = 1 → Hit k)) tick).bind fun w => ?_
  apply Action.meets_pure
  rintro t ⟨kept, owned, holds, hit⟩
  split
  · next held => exact ⟨kept, owned, hit (beq_iff_eq.1 held)⟩
  · exact ⟨kept, owned, holds⟩

end Fronts

/-! ## The exchange -/

/-- How an exchange of the DAC's driver can fail after its check: one of the two waits runs out, and `arm`
is as the exchange left it then. -/
def RunsOut (limit : Nat) (e : DriverError) (armed : Bool) : Prop :=
  (e = .timeout "ready_to_arm" limit ∧ armed = false) ∨ (e = .timeout "finished" limit ∧ armed = true)

namespace RunsOut

variable {limit polls : Nat} {what : String} {armed : Bool}

theorem condition (runs : RunsOut limit (.timeout what polls) armed) :
    what = "ready_to_arm" ∨ what = "finished" :=
  runs.imp (fun first => (DriverError.timeout.inj first.1).1) fun second =>
    (DriverError.timeout.inj second.1).1

theorem low (runs : RunsOut limit (.timeout "ready_to_arm" polls) armed) : armed = false := by
  rcases runs with ⟨-, low⟩ | ⟨other, -⟩
  · exact low
  · exact absurd (DriverError.timeout.inj other).1 (by decide)

theorem high (runs : RunsOut limit (.timeout "finished" polls) armed) : armed = true := by
  rcases runs with ⟨other, -⟩ | ⟨-, high⟩
  · exact absurd (DriverError.timeout.inj other).1 (by decide)
  · exact high

end RunsOut

/-- An exchange loads its frame while no session is open. A failed check leaves the supervisor
unconnected or the grant useless; a failed wait leaves the supervisor connected, and `arm` low after the
first wait and high after the second. -/
theorem Fronts.meets_exchange (fronts : Fronts c board I) (reads : ReadsKeep I)
    (arms : WritesKeep I ((Port.dac0.region c).origin + Layout.offset Controller.arm))
    (loads : ∀ w t, Owns board I (fun k => k.transfer = .idle ∧ k.armed = false) t →
      I (Transport.writeWord t ((Port.dac0.region c).origin + Layout.offset Controller.toSlave) w).2)
    (id limit : Nat) (g : Grant) (w : Word) :
    Meets I (((Port.dac0.driver c id).withPollLimit limit).exchange g w)
      (fun _ t => I t)
      fun e t => (I t ∧ ∃ owner, e = .notOwner "dac0" owner supervisorIndex) ∨
        Owns board I (fun k => RunsOut limit e k.armed) t := by
  -- `arm` is written twice over, each time to a known value
  have sets (P : Controller Ad5791.Chip → Prop) (v : Word) :
      Meets (Owns board I P) ((Port.dac0.driver c id).arm.set v)
        (fun _ => Owns board I fun k => k.armed = (v &&& widthMask 1 == 1)) fun _ _ => False :=
    fronts.meets_set Controller.arm_field rfl v (fun t before => arms _ t before.kept)
      fun k sound _ => sound.tick.armed_put_arm v
  refine ((fronts.meets_check reads id g).mono (fun _ now => now) (fun _ _ met => met)
    fun _ _ failed => .inl failed).bind fun _ => ?_
  refine ((sets (fun _ => True) 0).unfailing.mono (fun t met => ⟨met.1, met.2, trivial⟩)
    (fun _ _ met => met) fun _ _ met => met).bind fun _ => ?_
  refine (Action.meets_pollUntil (Q := Owns board I fun k => k.transfer = .idle ∧ k.armed = false)
    (fronts.meets_poll Controller.readyToArm_field reads ?_).unfailing ?_ limit).bind fun _ => ?_
  · intro k sound low
    have still : k.tick.armed = false := (Controller.armed_tick k).trans low
    refine ⟨still, fun ready => ⟨?_, still⟩⟩
    by_contra busy
    rw [sound.tick.ready, if_neg busy] at ready
    cases ready
  · exact fun t low => .inr ⟨low.kept, low.owned, .inl ⟨rfl, low.holds⟩⟩
  refine (fronts.meets_set Controller.toSlave_field rfl w (loads _)
    (Q := fun _ => True) fun _ _ _ => trivial).unfailing.bind fun _ => ?_
  refine (sets _ 1).unfailing.bind fun _ => ?_
  refine (Action.meets_pollUntil (Q := Owns board I fun k => k.armed = true)
    (fronts.meets_poll Controller.finished_field reads ?_).unfailing ?_ limit).bind fun _ => ?_
  · intro k sound high
    have still : k.tick.armed = true := (Controller.armed_tick k).trans high
    exact ⟨still, fun _ => still⟩
  · exact fun t high => .inr ⟨high.kept, high.owned, .inr ⟨rfl, high.holds⟩⟩
  refine (fronts.meets_get Controller.fromSlave_field reads (Q := fun _ _ => True)
    fun _ _ _ => trivial).unfailing.bind fun _ => ?_
  refine (sets _ 0).unfailing.bind fun _ => ?_
  exact Action.meets_pure fun t met => met.kept

end InstrumentBus.Board
