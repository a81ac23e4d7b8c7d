import Mathlib.Data.List.Induction
import InstrumentBus.Proofs.Bus.History
import InstrumentBus.Proofs.Spi.Controller

/-!
# Histories of an SPI controller

A history of a controller is any sequence of bus transactions and steps. The controller stays sound along it,
and since no transaction moves the transfer, the transfer is where the `arm` bits that the steps find lead it
(`transfer_after`). A session opens in a step that takes `ready_to_arm` down, and its frame is completed by a step
that raises `finished`; `Sound.opens_iff` and `Sound.completes_iff` say when a step does this.
-/

namespace InstrumentBus

/-- Where the `arm` bits of several steps lead a transfer that is idle at first: the sessions that they open,
complete and release. -/
def Spi.Transfer.along (cycles : Nat) (arms : List Bool) : Spi.Transfer :=
  arms.foldl (fun transfer armed => transfer.next armed cycles) .idle

namespace Spi

/-! ## Transfers -/

namespace Transfer

variable {armed : Bool} {cycles left : Nat} {t : Transfer}

/-- A frame is to be shifted after a step that opens the session, and after one that counts down. -/
theorem next_eq_busy_iff :
    t.next armed cycles = .busy left ↔ (t = .idle ∧ armed = true ∧ left = cycles) ∨ t = .busy (left + 1) := by
  cases t with
  | idle => cases armed <;> simp [next, eq_comm]
  | busy more => cases more <;> simp [next]
  | done => cases armed <;> simp [next]

/-- A frame is complete after the step that shifts it, and until a step finds `arm` low. -/
theorem next_eq_done_iff : t.next armed cycles = .done ↔ t = .busy 0 ∨ (t = .done ∧ armed = true) := by
  cases t with
  | idle => cases armed <;> simp [next]
  | busy more => cases more <;> simp [next]
  | done => cases armed <;> simp [next]

/-- No session is open after a step that releases it, and until a step finds `arm` raised. -/
theorem next_eq_idle_iff :
    t.next armed cycles = .idle ↔ (t = .idle ∨ t = .done) ∧ armed = false := by
  cases t with
  | idle => cases armed <;> simp [next]
  | busy more => cases more <;> simp [next]
  | done => cases armed <;> simp [next]

end Transfer

namespace Controller

open Input (after)

variable {δ : Type} {frameWidth cycles : Nat} {c : Controller δ}

/-! ## Flags -/

theorem Sound.ready_iff (sound : c.Sound frameWidth cycles) :
    c.registers.value readyToArm = 1 ↔ c.transfer = .idle := by
  rw [sound.ready]
  by_cases idle : c.transfer = .idle <;> simp [idle]

theorem Sound.not_ready_iff (sound : c.Sound frameWidth cycles) :
    c.registers.value readyToArm = 0 ↔ c.transfer ≠ .idle := by
  rw [sound.ready]
  by_cases idle : c.transfer = .idle <;> simp [idle]

theorem Sound.finished_iff (sound : c.Sound frameWidth cycles) :
    c.registers.value finished = 1 ↔ c.transfer = .done := by
  rw [sound.complete]
  by_cases done : c.transfer = .done <;> simp [done]

theorem Sound.not_finished_iff (sound : c.Sound frameWidth cycles) :
    c.registers.value finished = 0 ↔ c.transfer ≠ .done := by
  rw [sound.complete]
  by_cases done : c.transfer = .done <;> simp [done]

/-- No two flags are up at once. -/
theorem Sound.flags_exclusive (sound : c.Sound frameWidth cycles) :
    ¬(c.registers.value readyToArm = 1 ∧ c.registers.value finished = 1) := by
  rintro ⟨ready, complete⟩
  have idle := sound.ready_iff.1 ready
  have done := sound.finished_iff.1 complete
  rw [idle] at done
  cases done

/-! ## Histories -/

section Histories

variable [SerialDevice δ]

/-- The `arm` bits that the steps of a history find. -/
def armsSeen (c : Controller δ) (inputs : List (Input Unit)) : List Bool :=
  Input.seen armed c inputs

/-- Whatever happens to a controller, its flags tell its transfer. -/
theorem Sound.along (sound : c.Sound frameWidth cycles) (inputs : List (Input Unit)) :
    (after c inputs).Sound frameWidth cycles :=
  Input.after_keeps (fun _ req sound => sound.transact req) (fun _ _ sound => sound.tick) sound inputs

/-- The transfer goes where the `arm` bits lead it that the steps find. -/
theorem transfer_after (c : Controller δ) (inputs : List (Input Unit)) :
    (after c inputs).transfer =
      (c.armsSeen inputs).foldl (fun transfer armed => transfer.next armed c.cycles) c.transfer :=
  Input.fold_after (P := fun now => now.cycles = c.cycles) (fun _ _ same => ⟨same, rfl⟩)
    (fun now _ same => ⟨(cycles_tick now).trans same, same ▸ transfer_tick now⟩) rfl inputs

/-! ## Steps that show -/

/-- The next step opens a session: the controller is ready before it and no more after it. -/
def Opens (c : Controller δ) : Prop :=
  c.registers.value readyToArm = 1 ∧ c.tick.registers.value readyToArm = 0

/-- The next step completes the frame of a session: the controller is finished after it and not before. -/
def Completes (c : Controller δ) : Prop :=
  c.registers.value finished = 0 ∧ c.tick.registers.value finished = 1

theorem Sound.opens_iff (sound : c.Sound frameWidth cycles) :
    c.Opens ↔ c.transfer = .idle ∧ c.armed = true := by
  rw [Opens, sound.ready_iff, sound.tick.not_ready_iff, transfer_tick, ne_eq, Transfer.next_eq_idle_iff]
  refine and_congr_right fun idle => ?_
  simp [idle]

theorem Sound.completes_iff (sound : c.Sound frameWidth cycles) : c.Completes ↔ c.transfer = .busy 0 := by
  rw [Completes, sound.not_finished_iff, sound.tick.finished_iff, transfer_tick, Transfer.next_eq_done_iff]
  constructor
  · rintro ⟨incomplete, last | ⟨done, -⟩⟩
    · exact last
    · exact absurd done incomplete
  · intro last
    refine ⟨?_, .inl last⟩
    rw [last]
    rintro ⟨⟩

/-- A step that completes a frame is the one that shifts it. -/
theorem Sound.due_of_completes (sound : c.Sound frameWidth cycles) (completes : c.Completes) :
    c.due = [c.frame] := by
  simp only [due, sound.completes_iff.1 completes]

theorem Sound.due_of_not_completes (sound : c.Sound frameWidth cycles) (incomplete : ¬c.Completes) :
    c.due = [] := by
  rw [sound.completes_iff] at incomplete
  unfold due
  split
  · next last => exact absurd last incomplete
  · rfl

end Histories

end Controller

end Spi

end InstrumentBus
