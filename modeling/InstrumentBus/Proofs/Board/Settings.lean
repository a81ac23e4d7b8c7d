import InstrumentBus.Proofs.Board.Converter

/-!
# Settings of the DAC and their echo

A write of the control register is confirmed by reading the register back, and the settings that are written
decide whether the converter answers at all. So the confirmation fails exactly if the settings silence the
serial output, and they are in force all the same (`Entitled.performs_writeControl`). What the converter held
before does not matter, and neither does a frame that is in flight.
-/

namespace InstrumentBus

open Ad5791 (Chip Coding Control)

/-- A write of the control register ends well if the register reads back as it was written. -/
theorem DacDriver.perform_writeControl_of_echo {τ : Type} [Transport τ] {d : DacDriver} {g : Grant}
    {settings coded : Control} {t taken after : τ} {answer echo : Word} (own : d.settings settings = coded)
    (wrote : (d.spi.exchange g (Ad5791.writeFrame .control (WordCode.encode coded))).perform t =
      (.ok answer, taken))
    (read : (d.readBack g .control).perform taken = (.ok echo, after)) :
    (d.writeControl g settings).perform (.connect t) =
      (if echo = WordCode.encode coded then .ok coded else .error (.echoMismatch (WordCode.encode coded) echo),
        .connect after) := by
  rw [writeControl, own, Control.encode_and_dataMask]
  by_cases same : echo = WordCode.encode coded
  · rw [if_pos same]
    refine Action.perform_bind_of_ok (v := ()) ?_ _
    rw [Link.perform_locked, Action.perform_bind_of_ok wrote, Action.perform_bind_of_ok read,
      if_neg (not_not_intro same)]
    rfl
  · rw [if_neg same]
    refine Action.perform_bind_of_error ?_ _
    rw [Link.perform_locked, Action.perform_bind_of_ok wrote, Action.perform_bind_of_ok read, if_pos same]
    rfl

namespace Board

variable {c : Config} {b : Board}

namespace Entitled

variable {id : Nat} {g : Grant} (entitled : Entitled c id g) (reach : Reachable c b)
  (owned : b.owner .dac0 = supervisorMaster) (coding : Coding)
include entitled reach owned

/-- The settings are in force with the bit for the driver's coding, and they are confirmed if they do not silence
the serial output. -/
theorem performs_writeControl (settings : Control) {coded : Control}
    (own : (dacDriver c id coding).settings settings = coded) :
    ∃ after : Board,
      ((dacDriver c id coding).writeControl g settings).perform (.connect (View.mk .supervisor b)) =
        (if coded.silent then .error (.echoMismatch (WordCode.encode coded) 0) else .ok coded,
          .connect (View.mk .supervisor after)) ∧
      DacAtRest c { b.settledDac with control := WordCode.encode coded, readback := 0 } after := by
  obtain ⟨taken, wrote, rest⟩ := entitled.performs_exchange reach owned coding
    (Ad5791.writeFrame_and_frameMask .control (WordCode.encode coded))
  rw [Ad5791.receive_settings] at rest
  obtain ⟨after, read, left⟩ := entitled.performs_readBack rest.reach rest.owned coding .control
  rw [rest.settled] at left
  have held : taken.settledDac.control = WordCode.encode coded := by rw [rest.settled]
  rw [Ad5791.shown_settings held] at read
  refine ⟨after, (DacDriver.perform_writeControl_of_echo own wrote read).trans ?_, left⟩
  cases silent : coded.silent with
  | true =>
    have unlike : (0 : Word) ≠ WordCode.encode coded := (Control.encode_ne_zero silent).symm
    rw [if_pos rfl, if_neg unlike, if_pos rfl]
  | false => rw [if_neg Bool.false_ne_true, if_pos rfl, if_neg Bool.false_ne_true]

/-- The configured converter differs from one at power-on in its settings alone. -/
theorem performs_configure {coded : Control} (own : (dacDriver c id coding).settings .enabled = coded) :
    ∃ after : Board,
      ((dacDriver c id coding).configure g).perform (.connect (View.mk .supervisor b)) =
        (.ok coded, .connect (View.mk .supervisor after)) ∧
      DacAtRest c { Chip.powerOn with control := WordCode.encode coded } after := by
  obtain ⟨fresh, reset, rest⟩ := entitled.performs_command reach owned coding
    { Ad5791.Software.none with reset := true }
  rw [Ad5791.receive_reset] at rest
  obtain ⟨after, wrote, left⟩ := entitled.performs_writeControl rest.reach rest.owned coding .enabled own
  have audible : coded.silent = false := own ▸ rfl
  rw [if_neg (ne_true_of_eq_false audible)] at wrote
  rw [rest.settled] at left
  exact ⟨after, (Action.perform_bind_of_ok reset _).trans wrote, left⟩

end Entitled

/-- Whatever the DAC of a board holds, and whether a frame is in flight or not, a driver of the supervisor with a
current grant writes the control register with the bit for its own coding. The register holds what was written
then, and the write is confirmed if and only if the settings do not silence the serial output. After a
configuration the DAC is at power-on but for its settings, which drive the output. -/
theorem settings_are_confirmed_unless_silent (reach : Reachable c b)
    (enough : c.spiCycles + 2 ≤ standardPollLimit) (id : Nat) (coding : Coding) :
    ∃ d, DacDriver.ofManifest id (b.manifest .supervisor) "dac0" coding = .ok d ∧
      ∀ g : Grant, g.arbiter.id = d.spi.arbiter.id → g.master = supervisorIndex →
        b.owner .dac0 = supervisorMaster →
        (∀ settings coded : Control, coded = { settings with offsetBinary := coding == .offsetBinary } →
          ∃ after : Board,
            (d.writeControl g settings).perform (.connect (View.mk .supervisor b)) =
              (if settings.silent then .error (.echoMismatch (WordCode.encode coded) 0) else .ok coded,
                .connect (View.mk .supervisor after)) ∧
            after.dac.control = WordCode.encode coded ∧ after.dac0.device.leftOver = []) ∧
        ∀ coded : Control, coded = { Control.enabled with offsetBinary := coding == .offsetBinary } →
          ∃ after : Board,
            (d.configure g).perform (.connect (View.mk .supervisor b)) =
              (.ok coded, .connect (View.mk .supervisor after)) ∧
            after.dac = { Chip.powerOn with control := WordCode.encode coded } ∧
            after.dac0.device.leftOver = [] := by
  refine ⟨dacDriver c id coding, reach.ofManifest_dac id coding, fun g issued holder owned => ?_⟩
  have entitled : Entitled c id g := ⟨issued, holder, enough⟩
  constructor
  · rintro settings coded rfl
    obtain ⟨after, wrote, left⟩ := entitled.performs_writeControl reach owned coding settings rfl
    exact ⟨after, wrote, congrArg Chip.control left.chip_eq, left.quiet⟩
  · rintro coded rfl
    obtain ⟨after, configured, left⟩ := entitled.performs_configure reach owned coding rfl
    exact ⟨after, configured, left.chip_eq, left.quiet⟩

/-- A small board on which a frame that silences the serial output of the DAC is about to start. -/
def silencing : Board :=
  (small 2).run [.access .supervisor (.writeWord 0x2010 (Ad5791.writeFrame .control Chip.silenceBit)),
    .access .supervisor (.writeWord 0x2008 1)]

/-- The frame that is about to start when a driver writes its settings does not keep them from being confirmed. -/
theorem settings_follow_silencing_frame : Reachable (.small 2) silencing ∧
    silencing.dac0.device.leftOver = [Ad5791.writeFrame .control Chip.silenceBit] ∧
    ∃ d after, DacDriver.ofManifest 0 (silencing.manifest .supervisor) "dac0" .twosComplement = .ok d ∧
      (d.writeControl ⟨d.spi.arbiter, supervisorIndex⟩ .powerOn).perform
          (.connect (View.mk .supervisor silencing)) =
        (.ok .powerOn, .connect (View.mk .supervisor after)) ∧
      after.dac.control = 0xC := by
  have reach : Reachable (.small 2) silencing := (Reachable.assembled (assemble_small 2)).run _
  have owned : silencing.owner .dac0 = supervisorMaster := by decide +kernel
  obtain ⟨d, made, writes⟩ := settings_are_confirmed_unless_silent reach (by decide) 0 .twosComplement
  obtain ⟨after, wrote, held, -⟩ :=
    (writes ⟨d.spi.arbiter, supervisorIndex⟩ rfl rfl owned).1 .powerOn .powerOn rfl
  exact ⟨reach, by decide +kernel, d, after, made, wrote, held.trans (by decide)⟩

end Board

end InstrumentBus
