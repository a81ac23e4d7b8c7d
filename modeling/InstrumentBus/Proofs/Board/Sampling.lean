import InstrumentBus.Driver.Adc
import InstrumentBus.Proofs.Word.Signed
import InstrumentBus.Proofs.Board.Sending

/-!
# Samples of the ADC

A number that is presented to the ADC stays in the converter until the next one, whatever happens to the board
(`Sampled`). The frame that is exchanged with it is cut to its width and takes the sample along, also after a
frame that somebody else left in flight, so the driver reads the one number of that width that is congruent to
what was presented (`sample_is_read`).
-/

namespace InstrumentBus

/-- A sampling converter does not take anything in. -/
theorem Spi.Sampler.feed_eq (s : Sampler) (frames : List Word) : SerialDevice.feed s frames = s := by
  induction frames with
  | nil => rfl
  | cons w frames ih => exact ih

/-- What the converter drives is read as the residue of the number that was presented. -/
theorem Spi.Sampler.signed_present {bits : Nat} (narrow : bits ≤ 32) (raw : Int) :
    Word.signed bits (((powerOn bits).present raw).sample &&& widthMask bits) = raw.bmod (2 ^ bits) := by
  rw [Word.signed_and_widthMask]
  exact (Word.signed_and_widthMask _ _).trans (Word.signed_ofInt narrow raw)

namespace Board

open Spi (Sampler)

variable {c : Config} {b : Board} {raw : Int}

/-! ## The converter on the board -/

/-- The converter behind the ADC's controller. -/
def sampler (b : Board) : Sampler :=
  b.adc0.device.device

theorem sampler_tick (b : Board) : b.tick.sampler = b.sampler :=
  (Spi.Controller.device_tick b.adc0.device).trans (Sampler.feed_eq _ _)

theorem sampler_transact? {side : Side} {block : Block} {req : Request} {answered : Response × Board}
    (result : b.transact? side block req = some answered) : answered.2.sampler = b.sampler :=
  transact?_keeps (p := .adc0) (P := fun k => k.device = b.sampler) (fun _ _ kept => kept) rfl result

/-- Only a new sample changes the converter. -/
theorem Reachable.sampler_step (reach : Reachable c b) {e : Event} (other : ∀ n, e ≠ .sample n) :
    (b.step e).sampler = b.sampler := by
  cases e with
  | tick => exact sampler_tick b
  | access side op =>
    show (b.perform side op).2.sampler = b.sampler
    rcases reach.perform_answers side op with ⟨-, same⟩ | ⟨-, region, -, -, answered, result, outcome⟩
    · rw [same]
    · rw [outcome, sampler_transact? result, sampler_tick]
  | sample n => exact absurd rfl (other n)
  | core activity => rfl

theorem Reachable.bits_sampler (reach : Reachable c b) : b.sampler.bits = c.adcBits := by
  refine reach.invariant ?assembled ?tick ?transact ?sample ?core
  case assembled =>
    intro b assembled
    obtain ⟨_, _, -, -, -, rfl⟩ := assemble_eq_ok_iff.1 assembled
    rfl
  case tick =>
    intro b kept
    rwa [sampler_tick]
  case transact =>
    intro b kept side block req answered result
    rwa [sampler_transact? result]
  case sample => exact fun _ kept => kept
  case core => exact fun _ kept => kept

/-- The converter holds what became of the number `raw` when it was presented. -/
structure Sampled (c : Config) (raw : Int) (b : Board) : Prop where
  reach : Reachable c b
  sampler_eq : b.sampler = (Sampler.powerOn c.adcBits).present raw

namespace Sampled

theorem present (reach : Reachable c b) (raw : Int) : Sampled c raw (b.presentAdc raw) := by
  refine ⟨.step (.sample raw) reach, ?_⟩
  show b.sampler.present raw = _
  rw [Sampler.present, Sampler.present, reach.bits_sampler]
  rfl

theorem step (sampled : Sampled c raw b) {e : Event} (other : ∀ n, e ≠ .sample n) :
    Sampled c raw (b.step e) :=
  ⟨.step e sampled.reach, (sampled.reach.sampler_step other).trans sampled.sampler_eq⟩

theorem run (sampled : Sampled c raw b) {events : List Event} (others : ∀ n, .sample n ∉ events) :
    Sampled c raw (b.run events) := by
  induction events generalizing b with
  | nil => exact sampled
  | cons e rest ih =>
    have other (n : Int) : e ≠ .sample n := fun same => others n (same ▸ .head _)
    exact ih (sampled.step other) fun n later => others n (.tail _ later)

end Sampled

/-! ## The driver -/

/-- The driver of the ADC for the width of its samples. -/
def adcDriver (c : Config) (id : Nat) : AdcDriver :=
  { spi := Port.adc0.driver c id, bits := c.adcBits, range := 10.24, singleEnded := true }

/-- The supervisor's manifest leads to the driver. -/
theorem Reachable.ofManifest_adc (reach : Reachable c b) (wide : 2 ≤ c.adcBits) (id : Nat) :
    (AdcDriver.ofManifest id (b.manifest .supervisor) "adc0" >>= (·.withBits c.adcBits)) =
      .ok (adcDriver c id) := by
  have found : SpiDriver.ofManifest id (b.manifest .supervisor) "adc0" = .ok (Port.adc0.driver c id) :=
    reach.ofManifest_port .adc0 id
  obtain ⟨-, narrow⟩ := reach.adcBits_bounds
  simp only [AdcDriver.ofManifest, found]
  exact if_pos ⟨wide, narrow⟩

/-- While the supervisor is connected, its driver reads the residue of the number that was presented, and leaves
it in the converter. -/
theorem Sampled.performs_number (sampled : Sampled c raw b) {id : Nat} {g : Grant}
    (issued : g.arbiter.id = (adcDriver c id).spi.arbiter.id) (holder : g.master = supervisorIndex)
    (owned : b.owner .adc0 = supervisorMaster) (enough : c.spiCycles + 2 ≤ standardPollLimit) :
    ∃ after : Board,
      ((adcDriver c id).number g).perform (.connect (View.mk .supervisor b)) =
        (.ok (raw.bmod (2 ^ c.adcBits)), .connect (View.mk .supervisor after)) ∧
      Sampled c raw after ∧ after.owner .adc0 = supervisorMaster := by
  obtain ⟨-, narrow⟩ := sampled.reach.adcBits_bounds
  have leads : Leads c .adc0 b b.adc0.device := ⟨sampled.reach, owned, rfl⟩
  have current : g.arbiter.id = (Port.adc0.driver c id).arbiter.id := issued
  obtain ⟨after, k, exchanged, left, -, device⟩ := leads.performs_exchange current holder enough 0
  have fed (frames : List Word) : SerialDevice.feed b.sampler frames = b.sampler := Sampler.feed_eq _ _
  have exchanged : ((adcDriver c id).spi.exchange g 0).perform (View.mk .supervisor b) =
      (.ok ((SerialDevice.feed b.sampler b.adc0.device.leftOver).sample &&& widthMask c.adcBits),
        View.mk .supervisor after) := exchanged
  have device : after.sampler = SerialDevice.feed b.sampler _ :=
    (congrArg Spi.Controller.device left.controller).trans device
  rw [fed] at exchanged device
  have answer := Sampler.signed_present narrow raw
  rw [← sampled.sampler_eq] at answer
  have sent : ((adcDriver c id).spi.send g 0).perform (.connect (View.mk .supervisor b)) =
      (.ok (b.sampler.sample &&& widthMask c.adcBits), .connect (View.mk .supervisor after)) := by
    rw [SpiDriver.send, Link.perform_locked, exchanged]
    rfl
  refine ⟨after, ?_, ⟨left.reach, ?_⟩, left.owned⟩
  · rw [← answer]
    exact Action.perform_bind_of_ok sent _
  · rw [device, sampled.sampler_eq]

/-- After any number is presented to the ADC and any events but a new sample, a driver of the supervisor with
a current grant reads the one number of the ADC's width that is congruent to it, whether a frame is in flight
or not, and so the number itself if it has that width. Reading it leaves it where it is. -/
theorem sample_is_read (reach : Reachable c b) (wide : 2 ≤ c.adcBits)
    (enough : c.spiCycles + 2 ≤ standardPollLimit) (id : Nat) :
    ∃ d, (AdcDriver.ofManifest id (b.manifest .supervisor) "adc0" >>= (·.withBits c.adcBits)) = .ok d ∧
      ∀ (raw : Int) (events : List Event) (g : Grant), (∀ n, .sample n ∉ events) →
        g.arbiter.id = d.spi.arbiter.id → g.master = supervisorIndex →
        ((b.presentAdc raw).run events).owner .adc0 = supervisorMaster →
        ∃ (n : Int) (after : Board),
          (d.number g).perform (.connect (View.mk .supervisor ((b.presentAdc raw).run events))) =
            (.ok n, .connect (View.mk .supervisor after)) ∧
          BalancedResidue c.adcBits raw n ∧ (∀ m, BalancedResidue c.adcBits raw m → m = n) ∧
          (-2 ^ (c.adcBits - 1) ≤ raw → raw < 2 ^ (c.adcBits - 1) → n = raw) ∧
          Sampled c raw after ∧ after.owner .adc0 = supervisorMaster := by
  have positive : 0 < c.adcBits := Nat.zero_lt_of_lt wide
  refine ⟨adcDriver c id, reach.ofManifest_adc wide id, fun raw events g others issued holder owned => ?_⟩
  obtain ⟨after, read, left, still⟩ :=
    ((Sampled.present reach raw).run others).performs_number issued holder owned enough
  have residue := BalancedResidue.bmod positive raw
  exact ⟨_, after, read, residue, fun m other => other.unique positive residue,
    fun lower upper => residue.unique positive (.self lower upper), left, still⟩

/-- A number that takes 19 bits is read from an ADC of 18 bits with the opposite sign, after a frame that was
left in flight. -/
theorem large_sample_is_read_negative :
    Reachable (.small 4) (small 4) ∧ 2 ≤ (Config.small 4).adcBits ∧
      (Config.small 4).spiCycles + 2 ≤ standardPollLimit ∧
      ∃ d, (AdcDriver.ofManifest 0 ((small 4).manifest .supervisor) "adc0" >>= (·.withBits 18)) = .ok d ∧
        ∃ after : Board,
          (d.number ⟨d.spi.arbiter, supervisorIndex⟩).perform (.connect (View.mk .supervisor
              (((small 4).presentAdc 131077).run [.access .supervisor (.writeWord 0x2108 1), .tick, .tick]))) =
            (.ok (-131067), .connect (View.mk .supervisor after)) := by
  have reach : Reachable (.small 4) (small 4) := .assembled (assemble_small 4)
  obtain ⟨d, found, reads⟩ := sample_is_read reach (by decide) (by decide) 0
  obtain ⟨n, after, read, -, unique, -⟩ :=
    reads 131077 [.access .supervisor (.writeWord 0x2108 1), .tick, .tick] ⟨d.spi.arbiter, supervisorIndex⟩
      (by simp) rfl rfl (by decide +kernel)
  have residue : BalancedResidue (Config.small 4).adcBits 131077 (-131067) :=
    ⟨by decide, by decide, by decide⟩
  rw [← unique _ residue] at read
  exact ⟨reach, by decide, by decide, d, found, after, read⟩

end Board

end InstrumentBus
