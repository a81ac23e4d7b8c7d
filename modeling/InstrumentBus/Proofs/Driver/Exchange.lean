import InstrumentBus.Proofs.Driver.Refusal
import InstrumentBus.Proofs.Spi.Controller

/-!
# What an exchange of the SPI driver does

An exchange releases what an earlier session left, waits until the controller is ready, opens a session,
waits until its frame is complete and takes the answer. The controller moves one step on with every access,
so an exchange is followed by a relation between the transport, the controller that it leads to and the
frames that its device took (`Drives`). Both waits count down to a known poll. So an exchange succeeds just
if `cycles + 2` polls are allowed (`Drives.exchange_ok`, `Drives.exchange_timeout`), and its device takes
what an earlier session left over, and then the frame of the exchange.
-/

namespace InstrumentBus

open Spi (Controller)

theorem RegisterRef.perform_reads {τ : Type} [Transport τ] {ref : RegisterRef} {t after : τ} {v : Word}
    (got : ref.get.perform t = (.ok v, after)) (w : Word) :
    (ref.reads w).perform t = (.ok (v == w), after) :=
  Action.perform_bind_of_ok got _

namespace SpiDriver

variable {τ δ : Type} [Transport τ] [SerialDevice δ] {frameWidth cycles : Nat}

section Drives

variable (R : τ → Controller δ → List Word → Prop)

/-- A driver's `get` finds the register in place `i` of the controller that `R` leads to, one step on. -/
def Gets (ref : RegisterRef) (i : Nat) : Prop :=
  ∀ {t c seen}, R t c seen →
    ∃ after, ref.get.perform t = (.ok (c.tick.registers.value i), after) ∧
      R after c.tick (seen ++ c.due)

/-- A driver's `set` reaches the register in place `i` of the controller that `R` leads to, one step on. -/
def Sets (ref : RegisterRef) (i : Nat) : Prop :=
  ∀ {t c seen} (w : Word), R t c seen →
    ∃ after, (ref.set w).perform t = (.ok (), after) ∧ R after (c.tick.put i w) (seen ++ c.due)

/-- The driver's registers are those of the controller that `R` leads to: `R t c seen` says that the
accesses on `t` reach `c`, and that its device took the frames `seen`. The supervisor stays connected, and
every access moves the controller one step on. -/
structure Drives (d : SpiDriver) (frameWidth cycles : Nat) : Prop where
  sound : ∀ {t c seen}, R t c seen → c.Sound frameWidth cycles
  owner : ∀ {t c seen}, R t c seen →
    ∃ after, d.arbiter.owner.perform t = (.ok supervisorIndex, after) ∧
      R after c.tick (seen ++ c.due)
  readyToArm : Gets R d.readyToArm Controller.readyToArm
  finished : Gets R d.finished Controller.finished
  fromSlave : Gets R d.fromSlave Controller.fromSlave
  arm : Sets R d.arm Controller.arm
  toSlave : Sets R d.toSlave Controller.toSlave

/-- The relation `R` from a device on, with what the device became of the frames that it took since. -/
def Since (device : δ) (before : List Word) (t : τ) (c : Controller δ) (seen : List Word) : Prop :=
  R t c (before ++ seen) ∧ c.device = SerialDevice.feed device seen

/-! ## Where an exchange is -/

/-- A released controller misses `n` more polls before it is ready, and the device takes what is still to
come of the frames `pending` on the way. -/
def Settling (seen pending : List Word) (n : Nat) (t : τ) : Prop :=
  ∃ c taken, R t c (seen ++ taken) ∧ c.armed = false ∧ c.misses = n ∧ taken ++ c.leftOver = pending

/-- The controller is ready, and the device took the frames `seen`. -/
def Ready (seen : List Word) (t : τ) : Prop :=
  ∃ c, R t c seen ∧ c.armed = false ∧ c.transfer = .idle

/-- A session is open that shifts `frame` in the tick after `n` more. -/
def Shifting (seen : List Word) (frame : Word) (n : Nat) (t : τ) : Prop :=
  ∃ c, R t c seen ∧ c.armed = true ∧ c.ShiftsAfter n ∧ c.frame = frame

/-- A session is complete, the device took the frames `seen`, and `answer` waits to be read. -/
def Complete (seen : List Word) (answer : Word) (t : τ) : Prop :=
  ∃ c, R t c seen ∧ c.armed = true ∧ c.transfer = .done ∧
    c.registers.value Controller.fromSlave = answer

/-- A session was released after it was complete. -/
def Released (seen : List Word) (t : τ) : Prop :=
  ∃ c, R t c seen ∧ c.transfer = .done ∧ c.registers.value Controller.arm = 0

end Drives

namespace Drives

variable {R : τ → Controller δ → List Word → Prop} {d : SpiDriver} {t : τ} {seen : List Word}

/-- The frames that are due in a step are those that the device takes in it. -/
theorem since (drives : d.Drives R frameWidth cycles) (device : δ) (before : List Word) :
    d.Drives (Since R device before) frameWidth cycles := by
  have step {t c seen} (now : Since R device before t c seen) :
      c.tick.device = SerialDevice.feed device (seen ++ c.due) := by
    rw [Controller.device_tick, now.2, SerialDevice.feed, SerialDevice.feed, SerialDevice.feed,
      List.foldl_append]
  have gets {ref i} (get : Gets R ref i) : Gets (Since R device before) ref i := by
    intro t c seen now
    obtain ⟨after, got, next⟩ := get now.1
    rw [List.append_assoc] at next
    exact ⟨after, got, next, step now⟩
  have sets {ref i} (set : Sets R ref i) : Sets (Since R device before) ref i := by
    intro t c seen w now
    obtain ⟨after, written, next⟩ := set w now.1
    rw [List.append_assoc] at next
    exact ⟨after, written, next, step now⟩
  refine ⟨fun now => drives.sound now.1, fun now => ?_, gets drives.readyToArm, gets drives.finished,
    gets drives.fromSlave, sets drives.arm, sets drives.toSlave⟩
  obtain ⟨after, reads, next⟩ := drives.owner now.1
  rw [List.append_assoc] at next
  exact ⟨after, reads, next, step now⟩

/-! ## The parts of an exchange -/

/-- The check passes, and the release leaves a controller that comes to rest within `cycles` misses. -/
theorem perform_release (drives : d.Drives R frameWidth cycles) {g : Grant}
    (issued : g.arbiter.id = d.arbiter.id) (holder : g.master = supervisorIndex) {c : Controller δ}
    (start : R t c seen) :
    ∃ n after, n ≤ cycles ∧ Settling R seen c.leftOver n after ∧
      ∀ {α : Type} (next : Action τ α),
        (do d.arbiter.check g supervisorIndex; d.arm.set 0; next : Action τ α).perform t =
          next.perform after := by
  -- the check reads the selection and the release writes `arm`: two ticks before the first poll
  obtain ⟨asked, reads, now⟩ := drives.owner start
  have accepted : d.arbiter.Accepts g supervisorIndex t := ⟨issued, holder, by rw [reads]⟩
  have passed := Arbiter.perform_check_of_accepts accepted
  rw [reads] at passed
  obtain ⟨after, written, left⟩ := drives.arm 0 now
  rw [List.append_assoc] at left
  have sound := (drives.sound now).tick
  refine ⟨_, after, (drives.sound start).misses_tick_tick_le, ⟨_, _, left, ?_, rfl, ?_⟩, fun next => ?_⟩
  · rw [sound.armed_put_arm]
    rfl
  · rw [sound.leftOver_release fun idle => Controller.armed_of_tick_idle idle, List.append_assoc,
      Controller.due_append_leftOver_tick, Controller.due_append_leftOver_tick]
  · exact (Action.perform_bind_of_ok passed _).trans (Action.perform_bind_of_ok written _)

/-- The wait for a released controller takes one poll more than the controller misses. -/
theorem perform_awaitReady (drives : d.Drives R frameWidth cycles) {pending : List Word} {n : Nat}
    (start : Settling R seen pending n t) (limit : Nat) :
    (n < limit → ∃ after,
      (waitFor "ready_to_arm" limit (d.readyToArm.reads 1)).perform t = (.ok (), after) ∧
        Ready R (seen ++ pending) after) ∧
    (limit ≤ n → ∃ after,
      (waitFor "ready_to_arm" limit (d.readyToArm.reads 1)).perform t =
        (.error (.timeout "ready_to_arm" limit), after)) := by
  refine Action.perform_pollUntil ?_ ?_ _ start
  · rintro n t ⟨c, taken, now, released, misses, rest⟩
    obtain ⟨after, got, next⟩ := drives.readyToArm now
    rcases (drives.sound now).tick_of_released released with ⟨none, -⟩ | ⟨closer, busy⟩
    · omega
    · -- A poll that misses may be the one in which the frame that was left over is shifted.
      rw [busy] at got
      rw [List.append_assoc] at next
      refine ⟨after, RegisterRef.perform_reads got 1, _, _, next, ?_, by omega, ?_⟩
      · rw [Controller.armed_tick, released]
      · rw [List.append_assoc, Controller.due_append_leftOver_tick, rest]
  · rintro t ⟨c, taken, now, released, misses, rest⟩
    obtain ⟨after, got, next⟩ := drives.readyToArm now
    rcases (drives.sound now).tick_of_released released with ⟨-, idle, ready⟩ | ⟨closer, -⟩
    · rw [ready] at got
      have armed : c.tick.armed = false := by rw [Controller.armed_tick, released]
      have nothing : c.tick.leftOver = [] := by simp [Controller.leftOver, idle, armed]
      have all : seen ++ taken ++ c.due = seen ++ pending := by
        rw [List.append_assoc, ← rest, ← c.due_append_leftOver_tick, nothing, List.append_nil]
      rw [all] at next
      exact ⟨after, RegisterRef.perform_reads got 1, _, next, armed, idle⟩
    · omega

/-- A ready controller has a session open once its frame is loaded and it is armed. -/
theorem perform_open (drives : d.Drives R frameWidth cycles) (start : Ready R seen t) (w : Word) :
    ∃ after, Shifting R seen (w &&& widthMask frameWidth) (cycles + 1) after ∧
      ∀ {α : Type} (next : Action τ α),
        (do d.toSlave.set w; d.arm.set 1; next : Action τ α).perform t = next.perform after := by
  obtain ⟨c, now, released, ready⟩ := start
  have sound := drives.sound now
  obtain ⟨loaded, written, now⟩ := drives.toSlave w now
  rw [Controller.due_of_idle ready, List.append_nil, Controller.tick_of_idle ready released] at now
  have stillReleased : (c.put Controller.toSlave w).armed = false := by
    rw [sound.armed_put_toSlave, released]
  have stillReady : (c.put Controller.toSlave w).transfer = .idle := ready
  obtain ⟨after, raised, left⟩ := drives.arm 1 now
  rw [Controller.due_of_idle stillReady, List.append_nil,
    Controller.tick_of_idle stillReady stillReleased] at left
  have armed : ((c.put Controller.toSlave w).put Controller.arm 1).armed = true := by
    rw [(drives.sound now).armed_put_arm]
    rfl
  refine ⟨after, ⟨_, left, armed, .inr ⟨ready, armed, ?_⟩, ?_⟩, fun next => ?_⟩
  · exact congrArg (· + 1) sound.delay.symm
  · rw [(drives.sound now).frame_put_arm, sound.frame_put_toSlave]
  · exact (Action.perform_bind_of_ok written _).trans (Action.perform_bind_of_ok raised _)

/-- The wait for an open session ends with the poll in which the frame is shifted. -/
theorem perform_awaitFinished (drives : d.Drives R frameWidth cycles) {frame : Word} {device : δ}
    (tracked : ∀ {t c}, R t c seen → c.device = device) {n : Nat}
    (start : Shifting R seen frame n t) (limit : Nat) :
    (n < limit → ∃ after,
      (waitFor "finished" limit (d.finished.reads 1)).perform t = (.ok (), after) ∧
        Complete R (seen ++ [frame])
          ((SerialDevice.exchange device frame).1 &&& widthMask frameWidth) after) ∧
    (limit ≤ n → ∃ after,
      (waitFor "finished" limit (d.finished.reads 1)).perform t =
        (.error (.timeout "finished" limit), after)) := by
  refine Action.perform_pollUntil ?_ ?_ _ start
  · rintro n t ⟨c, now, armed, later, rfl⟩
    obtain ⟨after, got, next⟩ := drives.finished now
    obtain ⟨closer, busy, nothing⟩ := (drives.sound now).tick_of_shiftsAfter_succ later
    rw [busy] at got
    rw [nothing, List.append_nil] at next
    refine ⟨after, RegisterRef.perform_reads got 1, _, next, ?_, closer, ?_⟩
    · rw [Controller.armed_tick, armed]
    · rw [Controller.frame_tick]
  · rintro t ⟨c, now, armed, last, rfl⟩
    obtain ⟨after, got, next⟩ := drives.finished now
    obtain ⟨done, finished, due, answer⟩ := (drives.sound now).tick_of_shiftsAfter_zero last
    rw [finished] at got
    rw [due] at next
    refine ⟨after, RegisterRef.perform_reads got 1, _, next, ?_, done, ?_⟩
    · rw [Controller.armed_tick, armed]
    · rw [answer, tracked now]

/-- The answer of a complete session is taken and the session released. -/
theorem perform_collect (drives : d.Drives R frameWidth cycles) {answer : Word}
    (start : Complete R seen answer t) :
    ∃ after,
      (do let answer ← d.fromSlave.get; d.arm.set 0; return answer : Action τ Word).perform t =
        (.ok answer, after) ∧ Released R seen after := by
  obtain ⟨c, now, armed, complete, rfl⟩ := start
  have sound := drives.sound now
  obtain ⟨taken, got, now⟩ := drives.fromSlave now
  rw [Controller.due_of_done complete, List.append_nil, Controller.tick_of_done complete armed] at now
  rw [Controller.tick_of_done complete armed] at got
  obtain ⟨after, lowered, left⟩ := drives.arm 0 now
  rw [Controller.due_of_done complete, List.append_nil, Controller.tick_of_done complete armed] at left
  refine ⟨after, ?_, _, left, complete, ?_⟩
  · exact (Action.perform_bind_of_ok got _).trans (Action.perform_bind_of_ok lowered _)
  · rw [sound.value_put_arm]
    rfl

/-! ## The exchange -/

variable {g : Grant} {c : Controller δ}

/-- With `cycles + 2` polls an exchange succeeds. The device takes what was left over and then the frame,
and its answer to that is the result; the session is released. -/
theorem exchange_ok (drives : d.Drives R frameWidth cycles) (issued : g.arbiter.id = d.arbiter.id)
    (holder : g.master = supervisorIndex) (start : R t c seen) (w : Word)
    (enough : cycles + 2 ≤ d.pollLimit) :
    ∃ after,
      (d.exchange g w).perform t =
        (.ok ((SerialDevice.exchange (SerialDevice.feed c.device c.leftOver)
          (w &&& widthMask frameWidth)).1 &&& widthMask frameWidth), after) ∧
      Released (Since R c.device seen) (c.leftOver ++ [w &&& widthMask frameWidth]) after := by
  have follows := drives.since c.device seen
  have begun : Since R c.device seen t c [] := ⟨by rwa [List.append_nil], rfl⟩
  -- the first wait takes at most `cycles + 1` polls and the second exactly `cycles + 2`
  obtain ⟨n, settling, few, now, released⟩ := follows.perform_release issued holder begun
  obtain ⟨ready, rested, now⟩ := (follows.perform_awaitReady now d.pollLimit).1 (by omega)
  obtain ⟨opened, now, armed⟩ := follows.perform_open now w
  obtain ⟨complete, finished, now⟩ :=
    (follows.perform_awaitFinished (fun now => now.2) now d.pollLimit).1 (by omega)
  obtain ⟨after, collected, now⟩ := follows.perform_collect now
  refine ⟨after, ?_, now⟩
  rw [exchange, released, Action.perform_bind_of_ok rested, armed, Action.perform_bind_of_ok finished,
    collected]
  rfl

/-- With fewer polls one of its two waits runs out. -/
theorem exchange_timeout (drives : d.Drives R frameWidth cycles)
    (issued : g.arbiter.id = d.arbiter.id) (holder : g.master = supervisorIndex)
    (start : R t c seen) (w : Word) (short : d.pollLimit < cycles + 2) :
    ∃ condition after,
      (d.exchange g w).perform t = (.error (.timeout condition d.pollLimit), after) := by
  have follows := drives.since c.device seen
  have begun : Since R c.device seen t c [] := ⟨by rwa [List.append_nil], rfl⟩
  obtain ⟨n, settling, few, now, released⟩ := follows.perform_release issued holder begun
  rw [exchange, released]
  -- the first wait may still be short enough, the second is not
  obtain ⟨enough, early⟩ := follows.perform_awaitReady now d.pollLimit
  by_cases first : n < d.pollLimit
  · obtain ⟨ready, rested, now⟩ := enough first
    obtain ⟨opened, now, armed⟩ := follows.perform_open now w
    obtain ⟨after, late⟩ :=
      (follows.perform_awaitFinished (fun now => now.2) now d.pollLimit).2 (by omega)
    rw [Action.perform_bind_of_ok rested, armed]
    exact ⟨_, after, Action.perform_bind_of_error late _⟩
  · obtain ⟨after, late⟩ := early (by omega)
    exact ⟨_, after, Action.perform_bind_of_error late _⟩

end Drives

end SpiDriver

end InstrumentBus
