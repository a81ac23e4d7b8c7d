import InstrumentBus.Proofs.Board.Converter

/-!
# Numbers that the DAC holds

A number that a driver puts into the DAC register or the clear code is what it reads back from there, brought
into range. Reading has no effect on the registers, so this stays true after any readouts
(`Entitled.gives_number`). A clear makes the number of the clear code the one at the output. What a driver
returns for a voltage is in range already, and is what it reads back (`Entitled.volts_come_back`).
-/

namespace InstrumentBus

open Ad5791 (Chip Coding)

/-! ## Voltages -/

namespace DacDriver

open Ad5791 (clampCode greatestCode leastCode)

/-- A distance gives the number that is so far from the least one, brought into range. The distances that are
too close to the least of 64 bits are an exception: their sum wraps around and gives the greatest number. -/
theorem numberAt_eq (distance : Int64) :
    numberAt distance =
      if distance.toInt < -2 ^ 63 - leastCode then greatestCode else clampCode (distance.toInt + leastCode) := by
  have low := Int64.le_toInt distance
  have high := Int64.toInt_lt distance
  have least : (Int64.ofInt leastCode).toInt = leastCode := by decide
  have sum : (distance + Int64.ofInt leastCode).toInt = (distance.toInt + leastCode).bmod (2 ^ 64) := by
    rw [Int64.toInt_add, least]
  rw [numberAt, sum, Int.bmod]
  unfold clampCode greatestCode leastCode
  omega

/-- A tenth of the least distance is far below the range, and the least one wraps around. -/
example : numberAt (Int64.minValue / 10) = leastCode ∧ numberAt Int64.minValue = greatestCode := by
  decide

/-- The number for a voltage is in range. -/
theorem clampCode_numberOfVolts (d : DacDriver) (volts : Float) :
    clampCode (d.numberOfVolts volts) = d.numberOfVolts volts :=
  Ad5791.clampCode_clampCode _

end DacDriver

/-! ## Readouts -/

/-- The operations of a driver of the converter that only read. -/
inductive DacDriver.Readout where
  | number
  | clearCode
  | control
deriving DecidableEq, Repr

namespace DacDriver

variable {τ : Type} [Transport τ]

/-- What a readout leaves behind, whatever it reads and however it ends. -/
def Readout.after (d : DacDriver) (g : Grant) (l : Link τ) : Readout → Link τ
  | .number => ((d.number g).perform l).2
  | .clearCode => ((d.clearCode g).perform l).2
  | .control => ((d.readControl g).perform l).2

/-- What several readouts leave behind. -/
def readouts (d : DacDriver) (g : Grant) (l : Link τ) (rs : List Readout) : Link τ :=
  rs.foldl (Readout.after d g) l

end DacDriver

namespace Board

variable {c : Config} {b : Board}

/-- After any readouts the operation gives `n`, and the converter meets `P` before and after it. -/
def Gives (d : DacDriver) (g : Grant) (b : Board) (a : Action (Link View) Int) (n : Int)
    (P : Chip → Prop) : Prop :=
  ∀ rs, ∃ read after : Board,
    d.readouts g (.connect (View.mk .supervisor b)) rs = .connect (View.mk .supervisor read) ∧
    a.perform (.connect (View.mk .supervisor read)) = (.ok n, .connect (View.mk .supervisor after)) ∧
    P read.dac ∧ P after.dac

theorem Gives.mono {d : DacDriver} {g : Grant} {a : Action (Link View) Int} {n : Int} {P Q : Chip → Prop}
    (gives : Gives d g b a n P) (weaker : ∀ chip, P chip → Q chip) : Gives d g b a n Q := by
  intro rs
  obtain ⟨read, after, before, outcome, held, last⟩ := gives rs
  exact ⟨read, after, before, outcome, weaker _ held, weaker _ last⟩

namespace Entitled

variable {id : Nat} {g : Grant} (entitled : Entitled c id g) (coding : Coding) {chip : Chip}
include entitled

/-- A readout takes the answer that the converter held ready, and leaves its registers. -/
theorem readout (rest : DacAtRest c chip b) (r : DacDriver.Readout) :
    ∃ after : Board,
      r.after (dacDriver c id coding) g (.connect (View.mk .supervisor b)) =
        .connect (View.mk .supervisor after) ∧
      DacAtRest c { chip with readback := 0 } after := by
  rw [← rest.settled]
  cases r with
  | number =>
    obtain ⟨after, read, left⟩ := entitled.performs_readNumber rest.reach rest.owned coding .dac
    exact ⟨after, congrArg Prod.snd read, left⟩
  | clearCode =>
    obtain ⟨after, read, left⟩ := entitled.performs_readNumber rest.reach rest.owned coding .clearCode
    exact ⟨after, congrArg Prod.snd read, left⟩
  | control =>
    obtain ⟨after, read, left⟩ := entitled.performs_readControl rest.reach rest.owned coding
    exact ⟨after, congrArg Prod.snd read, left⟩

/-- Readouts leave a converter that holds no answer as it is. -/
theorem readouts (rest : DacAtRest c chip b) (taken : chip.readback = 0) (rs : List DacDriver.Readout) :
    ∃ after : Board,
      (dacDriver c id coding).readouts g (.connect (View.mk .supervisor b)) rs =
        .connect (View.mk .supervisor after) ∧
      DacAtRest c chip after := by
  induction rs generalizing b with
  | nil => exact ⟨b, rfl, rest⟩
  | cons r rs ih =>
    obtain ⟨next, read, left⟩ := entitled.readout coding rest r
    rw [← taken] at left
    obtain ⟨after, later, last⟩ := ih left
    refine ⟨after, ?_, last⟩
    rw [← read] at later
    exact later

/-- A register that holds the code of a number reads as this number from then on. -/
theorem gives_number (rest : DacAtRest c chip b) (taken : chip.readback = 0)
    (audible : chip.control &&& Chip.silenceBit = 0) {r : Ad5791.Register} {n : Int}
    (holds : chip.contents (some r) = coding.encode n) :
    Gives (dacDriver c id coding) g b ((dacDriver c id coding).readNumber g r) (Ad5791.clampCode n)
      (· = chip) := by
  intro rs
  obtain ⟨read, before, left⟩ := entitled.readouts coding rest taken rs
  obtain ⟨after, number, last⟩ := entitled.performs_readNumber left.reach left.owned coding r
  have shown : chip.shown r = coding.encode n := by
    rw [Chip.shown, if_pos audible, holds, Coding.encode_and_dataMask]
  rw [left.settled, shown, Coding.decode_encode] at number
  refine ⟨read, after, before, number, left.chip_eq, last.chip_eq.trans ?_⟩
  rw [left.settled, ← taken]

/-- A number that the driver writes to the output is read back from then on. -/
theorem sets_number (reach : Reachable c b) (owned : b.owner .dac0 = supervisorMaster)
    (quiet : b.dac0.device.leftOver = []) (audible : b.dac.control &&& Chip.silenceBit = 0) (n : Int) :
    ∃ written : Board,
      ((dacDriver c id coding).setNumber g n).perform (.connect (View.mk .supervisor b)) =
        (.ok (), .connect (View.mk .supervisor written)) ∧
      Gives (dacDriver c id coding) g written ((dacDriver c id coding).number g) (Ad5791.clampCode n)
        fun chip => chip.control = b.dac.control ∧ chip.clearCode = b.dac.clearCode := by
  obtain ⟨written, wrote, rest⟩ := entitled.performs_writeNumber reach owned coding .dac n
  rw [settledDac_of_quiet quiet, Ad5791.receive_output] at rest
  refine ⟨written, wrote, (entitled.gives_number coding rest rfl audible rfl).mono ?_⟩
  rintro _ rfl
  exact ⟨rfl, rfl⟩

/-- For a voltage the driver returns the number that is read back from then on, as it is. -/
theorem volts_come_back (reach : Reachable c b) (owned : b.owner .dac0 = supervisorMaster)
    (quiet : b.dac0.device.leftOver = []) (audible : b.dac.control &&& Chip.silenceBit = 0) (volts : Float) :
    ∃ written : Board,
      ((dacDriver c id coding).setVolts g volts).perform (.connect (View.mk .supervisor b)) =
        (.ok ((dacDriver c id coding).numberOfVolts volts), .connect (View.mk .supervisor written)) ∧
      Gives (dacDriver c id coding) g written ((dacDriver c id coding).number g)
        ((dacDriver c id coding).numberOfVolts volts)
        fun chip => chip.control = b.dac.control ∧ chip.clearCode = b.dac.clearCode := by
  obtain ⟨written, wrote, gives⟩ := entitled.sets_number coding reach owned quiet audible
    ((dacDriver c id coding).numberOfVolts volts)
  rw [DacDriver.clampCode_numberOfVolts] at gives
  exact ⟨written, Action.perform_bind_of_ok wrote _, gives⟩

end Entitled
/-- A driver of the supervisor with a current grant sets the output of a DAC whose serial output is enabled and
which no earlier frame is going to reach. The number is read back from then on, brought into range, whatever is
read in between, and the settings and the clear code stay. The clear code is set and read back in the same way,
while the output and the settings stay, and a clear makes it the number at the output. -/
theorem numbers_come_back (reach : Reachable c b) (enough : c.spiCycles + 2 ≤ standardPollLimit) (id : Nat)
    (coding : Coding) :
    ∃ d, DacDriver.ofManifest id (b.manifest .supervisor) "dac0" coding = .ok d ∧
      ∀ (g : Grant) (n : Int), g.arbiter.id = d.spi.arbiter.id → g.master = supervisorIndex →
        b.owner .dac0 = supervisorMaster → b.dac0.device.leftOver = [] →
        b.dac.control &&& Chip.silenceBit = 0 →
        (∃ written : Board,
          (d.setNumber g n).perform (.connect (View.mk .supervisor b)) =
            (.ok (), .connect (View.mk .supervisor written)) ∧
          Gives d g written (d.number g) (Ad5791.clampCode n)
            fun chip => chip.control = b.dac.control ∧ chip.clearCode = b.dac.clearCode) ∧
        ∃ written : Board,
          (d.setClearCode g n).perform (.connect (View.mk .supervisor b)) =
            (.ok (), .connect (View.mk .supervisor written)) ∧
          Gives d g written (d.clearCode g) (Ad5791.clampCode n)
            (fun chip => chip.dac = b.dac.dac ∧ chip.control = b.dac.control) ∧
          ∀ rs, ∃ read cleared : Board,
            d.readouts g (.connect (View.mk .supervisor written)) rs = .connect (View.mk .supervisor read) ∧
            (d.clear g).perform (.connect (View.mk .supervisor read)) =
              (.ok (), .connect (View.mk .supervisor cleared)) ∧
            Gives d g cleared (d.number g) (Ad5791.clampCode n) fun chip => chip.control = b.dac.control := by
  refine ⟨dacDriver c id coding, reach.ofManifest_dac id coding, ?_⟩
  intro g n issued holder owned quiet audible
  have entitled : Entitled c id g := ⟨issued, holder, enough⟩
  have settled : b.settledDac = b.dac := settledDac_of_quiet quiet
  constructor
  · exact entitled.sets_number coding reach owned quiet audible n
  · obtain ⟨written, wrote, rest⟩ := entitled.performs_writeNumber reach owned coding .clearCode n
    rw [settled, Ad5791.receive_clearCode] at rest
    refine ⟨written, wrote, (entitled.gives_number coding rest rfl audible rfl).mono ?_, fun rs => ?_⟩
    · rintro _ rfl
      exact ⟨rfl, rfl⟩
    · obtain ⟨read, before, left⟩ := entitled.readouts coding rest rfl rs
      obtain ⟨cleared, clears, last⟩ := entitled.performs_command left.reach left.owned coding
        { Ad5791.Software.none with clear := true }
      rw [left.settled, Ad5791.receive_clear] at last
      refine ⟨read, cleared, before, clears, (entitled.gives_number coding last rfl audible rfl).mono ?_⟩
      rintro _ rfl
      rfl

/-- On a small board a number below the range becomes the least code of the clear register, and after a clear and
readouts the least number is at the output. -/
theorem least_number_after_clear : ∃ d written cleared after,
    DacDriver.ofManifest 0 ((small 3).manifest .supervisor) "dac0" .twosComplement = .ok d ∧
    (d.setClearCode ⟨d.spi.arbiter, supervisorIndex⟩ (-600000)).perform
        (.connect (View.mk .supervisor (small 3))) =
      (.ok (), .connect (View.mk .supervisor written)) ∧
    (d.clear ⟨d.spi.arbiter, supervisorIndex⟩).perform (.connect (View.mk .supervisor written)) =
      (.ok (), .connect (View.mk .supervisor cleared)) ∧
    (d.number ⟨d.spi.arbiter, supervisorIndex⟩).perform
        (d.readouts ⟨d.spi.arbiter, supervisorIndex⟩ (.connect (View.mk .supervisor cleared))
          [.control, .number]) =
      (.ok (-524288), .connect (View.mk .supervisor after)) := by
  have reach : Reachable (.small 3) (small 3) := .assembled (assemble_small 3)
  have owned : (small 3).owner .dac0 = supervisorMaster := by decide +kernel
  have quiet : (small 3).dac0.device.leftOver = [] := by decide +kernel
  have audible : (small 3).dac.control &&& Chip.silenceBit = 0 := by decide +kernel
  obtain ⟨d, made, comesBack⟩ := numbers_come_back reach (by decide) 0 .twosComplement
  obtain ⟨-, written, wrote, -, clears⟩ :=
    comesBack ⟨d.spi.arbiter, supervisorIndex⟩ (-600000) rfl rfl owned quiet audible
  obtain ⟨read, cleared, before, clear, gives⟩ := clears []
  obtain ⟨last, after, readouts, number, -⟩ := gives [.control, .number]
  have same : Link.connect (View.mk .supervisor written) = .connect (View.mk .supervisor read) := before
  rw [← same] at clear
  rw [← readouts] at number
  exact ⟨d, written, cleared, after, made, wrote, clear, number⟩

end Board

end InstrumentBus
