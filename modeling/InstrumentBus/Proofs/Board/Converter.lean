import InstrumentBus.Proofs.Ad5791.Readback
import InstrumentBus.Proofs.Board.Coding
import InstrumentBus.Proofs.Board.Sending

/-!
# The driver of the DAC on a board

While the supervisor is connected to the DAC, each frame that its driver exchanges is one step of the converter,
after the one that an earlier session may have left in flight (`performs_exchange`). Between two operations the
driver leaves nothing in flight (`DacAtRest`), so an operation is described by the converter before and after it.
-/

namespace InstrumentBus.Board

open Ad5791 (Chip Coding Control)

variable {c : Config} {b : Board}

/-! ## The converter between two operations -/

/-- The DAC once it took the frame that is in flight or about to start, if there is one. -/
def settledDac (b : Board) : Chip :=
  SerialDevice.feed b.dac b.dac0.device.leftOver

/-- The supervisor is connected to the DAC, which is in the state `chip`, and no frame is in flight or about to
start. -/
structure DacAtRest (c : Config) (chip : Chip) (b : Board) : Prop where
  reach : Reachable c b
  owned : b.owner .dac0 = supervisorMaster
  quiet : b.dac0.device.leftOver = []
  chip_eq : b.dac = chip

theorem settledDac_of_quiet (quiet : b.dac0.device.leftOver = []) : b.settledDac = b.dac := by
  rw [settledDac, quiet]
  rfl

theorem DacAtRest.settled {chip : Chip} (rest : DacAtRest c chip b) : b.settledDac = chip :=
  (settledDac_of_quiet rest.quiet).trans rest.chip_eq

/-! ## Frames -/

/-- The grant was issued to the supervisor by the arbiter of a driver of the DAC, which polls often enough for a
session. -/
structure Entitled (c : Config) (id : Nat) (g : Grant) : Prop where
  issued : g.arbiter.id = (Port.dac0.driver c id).arbiter.id
  holder : g.master = supervisorIndex
  enough : c.spiCycles + 2 ≤ standardPollLimit

namespace Entitled

variable {id : Nat} {g : Grant} (entitled : Entitled c id g) (reach : Reachable c b)
  (owned : b.owner .dac0 = supervisorMaster) (coding : Coding)
include entitled reach owned

/-- A frame is one step of the converter, and its answer is what the converter drives meanwhile. -/
theorem performs_exchange {w : Word} (fits : w &&& widthMask Ad5791.frameWidth = w) :
    ∃ after : Board,
      ((dacDriver c id coding).spi.exchange g w).perform (View.mk .supervisor b) =
        (.ok (b.settledDac.output &&& widthMask Ad5791.frameWidth), View.mk .supervisor after) ∧
      DacAtRest c (b.settledDac.receive w) after := by
  have leads : Leads c .dac0 b b.dac0.device := ⟨reach, owned, rfl⟩
  obtain ⟨after, k, exchanged, left, done, device⟩ :=
    leads.performs_exchange entitled.issued entitled.holder entitled.enough w
  have same : w &&& widthMask (Port.dac0.frameWidth c) = w := fits
  rw [same] at exchanged device
  refine ⟨after, exchanged, left.reach, left.owned, ?_, ?_⟩
  · show (after.controller .dac0).leftOver = []
    rw [left.controller, Spi.Controller.leftOver, done]
  · show (after.controller .dac0).device = _
    rw [left.controller, device, SerialDevice.feed, List.foldl_append]
    rfl

/-- A read shows a register of the converter, and leaves the registers. -/
theorem performs_readBack (r : Ad5791.Register) :
    ∃ after : Board,
      ((dacDriver c id coding).readBack g r).perform (View.mk .supervisor b) =
        (.ok (b.settledDac.shown r), View.mk .supervisor after) ∧
      DacAtRest c { b.settledDac with readback := 0 } after := by
  obtain ⟨asked, first, rest⟩ :=
    entitled.performs_exchange reach owned coding (Ad5791.readFrame_and_frameMask r)
  have empty : (0 : Word) &&& widthMask Ad5791.frameWidth = 0 := by decide
  obtain ⟨after, second, left⟩ := entitled.performs_exchange rest.reach rest.owned coding empty
  rw [rest.settled] at second left
  rw [Ad5791.receive_empty, Ad5791.receive_readFrame] at left
  refine ⟨after, ?_, left⟩
  rw [← Ad5791.output_receive_readFrame]
  exact (Action.perform_bind_of_ok first _).trans (Action.perform_bind_of_ok second _)

/-! ## Operations -/

/-- An operation that writes a register sends one frame. -/
theorem performs_send (r : Ad5791.Register) (data : Word) :
    ∃ after : Board,
      ((dacDriver c id coding).spi.send g (Ad5791.writeFrame r data)).perform (.connect (View.mk .supervisor b)) =
        (.ok (b.settledDac.output &&& widthMask Ad5791.frameWidth), .connect (View.mk .supervisor after)) ∧
      DacAtRest c (b.settledDac.receive (Ad5791.writeFrame r data)) after := by
  obtain ⟨after, exchanged, left⟩ :=
    entitled.performs_exchange reach owned coding (Ad5791.writeFrame_and_frameMask r data)
  refine ⟨after, ?_, left⟩
  rw [SpiDriver.send, Link.perform_locked, exchanged]
  rfl

theorem performs_command (s : Ad5791.Software) :
    ∃ after : Board,
      ((dacDriver c id coding).command g s).perform (.connect (View.mk .supervisor b)) =
        (.ok (), .connect (View.mk .supervisor after)) ∧
      DacAtRest c (b.settledDac.receive (Ad5791.writeFrame .software (WordCode.encode s))) after := by
  obtain ⟨after, sent, left⟩ := entitled.performs_send reach owned coding .software (WordCode.encode s)
  exact ⟨after, Action.perform_bind_of_ok sent _, left⟩

theorem performs_writeNumber (r : Ad5791.Register) (n : Int) :
    ∃ after : Board,
      ((dacDriver c id coding).writeNumber g r n).perform (.connect (View.mk .supervisor b)) =
        (.ok (), .connect (View.mk .supervisor after)) ∧
      DacAtRest c (b.settledDac.receive (Ad5791.writeFrame r (coding.encode n))) after := by
  obtain ⟨after, sent, left⟩ := entitled.performs_send reach owned coding r (coding.encode n)
  exact ⟨after, Action.perform_bind_of_ok sent _, left⟩

/-- An operation that reads a register gives what the read shows. -/
theorem performs_locked_readBack (r : Ad5791.Register) :
    ∃ after : Board,
      (Link.locked ((dacDriver c id coding).readBack g r)).perform (.connect (View.mk .supervisor b)) =
        (.ok (b.settledDac.shown r), .connect (View.mk .supervisor after)) ∧
      DacAtRest c { b.settledDac with readback := 0 } after := by
  obtain ⟨after, read, left⟩ := entitled.performs_readBack reach owned coding r
  refine ⟨after, ?_, left⟩
  rw [Link.perform_locked, read]
  rfl

theorem performs_readNumber (r : Ad5791.Register) :
    ∃ after : Board,
      ((dacDriver c id coding).readNumber g r).perform (.connect (View.mk .supervisor b)) =
        (.ok (coding.decode (b.settledDac.shown r)), .connect (View.mk .supervisor after)) ∧
      DacAtRest c { b.settledDac with readback := 0 } after := by
  obtain ⟨after, read, left⟩ := entitled.performs_locked_readBack reach owned coding r
  exact ⟨after, Action.perform_bind_of_ok read _, left⟩

/-- The settings are read, unless the code of the span is undefined. -/
theorem performs_readControl :
    ∃ after : Board,
      ((dacDriver c id coding).readControl g).perform (.connect (View.mk .supervisor b)) =
        ((WordCode.decode? (b.settledDac.shown .control) : Option Control).elim
            (.error (.fault .undefinedCode)) .ok,
          .connect (View.mk .supervisor after)) ∧
      DacAtRest c { b.settledDac with readback := 0 } after := by
  obtain ⟨after, read, left⟩ := entitled.performs_locked_readBack reach owned coding .control
  refine ⟨after, ?_, left⟩
  rw [DacDriver.readControl, Action.perform_bind_of_ok read]
  cases (WordCode.decode? (b.settledDac.shown .control) : Option Control) with
  | some c => rfl
  | none => rfl

end Entitled

end InstrumentBus.Board
