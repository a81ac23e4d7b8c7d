import InstrumentBus.Proofs.Board.Acquiring
import InstrumentBus.Proofs.Coprocessor.Fetch
import InstrumentBus.Proofs.Ram.Bytes

/-!
# The core of a board

The core reads its RAM and never writes it, so the words of a program stay as the supervisor left them. A core in
reset that has noticed it rests (`Resting`): whatever happens to the board, it rests on while the supervisor stays
away from `enable` and from the selection in front of the RAM (`Reachable.resting_run`). A core out of reset that
has its RAM runs (`Running`), and shows the first word of the RAM as soon as the board has moved on.
-/

namespace InstrumentBus.Board

variable {c : Config} {b : Board} {master : Nat}

/-- The RAM of the core. -/
def program (b : Board) : Ram :=
  b.pico0Ram.device

/-! ## One step -/

/-- A read on a switch in front of a RAM changes nothing. -/
theorem transact_read_ram (s : BusSwitch Ram) (master : Nat) (addr : Addr) :
    (s.transact master (.read addr)).2 = s := by
  unfold BusSwitch.transact
  split <;> rfl

/-- The core does nothing to its RAM. -/
theorem pico0Ram_tick (b : Board) : b.tick.pico0Ram = b.pico0Ram := by
  have reads : (Target.transact (BusSwitch.View.mk coprocessorMaster b.pico0Ram) (.read 0)).2 =
      .mk coprocessorMaster b.pico0Ram :=
    congrArg (BusSwitch.View.mk coprocessorMaster) (transact_read_ram b.pico0Ram coprocessorMaster 0)
  exact congrArg BusSwitch.View.switch (b.pico0.ram_tick reads)

theorem program_tick (b : Board) : b.tick.program = b.program :=
  congrArg BusSwitch.device (pico0Ram_tick b)

theorem enabled_tick (b : Board) : b.tick.pico0.enabled = b.pico0.enabled :=
  b.pico0.enabled_tick _

theorem wasEnabled_tick (b : Board) : b.tick.pico0.wasEnabled = b.pico0.enabled :=
  b.pico0.wasEnabled_tick _

/-! ## Transactions -/

/-- Only the control region and the registers of the core are blocks of the core. -/
theorem transact?_pico0_of_ne {side : Side} {block : Block} {req : Request} {answered : Response × Board}
    (result : b.transact? side block req = some answered) (control : block ≠ .pico0) :
    answered.2.pico0.control = b.pico0.control ∧ answered.2.pico0.wasEnabled = b.pico0.wasEnabled := by
  cases side with
  | supervisor =>
    cases block with
    | pico0 => exact absurd rfl control
    | _ => cases result; exact ⟨rfl, rfl⟩
  | coprocessor => cases block <;> cases result <;> exact ⟨rfl, rfl⟩

/-- What any transaction keeps of a switch in front of a RAM. -/
theorem transact?_pico0Ram {side : Side} {block : Block} {req : Request} {answered : Response × Board}
    (result : b.transact? side block req = some answered) :
    answered.2.program.size = b.program.size ∧
      (block ≠ .pico0RamSelect → answered.2.owner .pico0Ram = b.owner .pico0Ram) ∧
      (b.owner .pico0Ram = supervisorMaster → (side = .supervisor → block ≠ .pico0Ram) →
        answered.2.program = b.program) := by
  have size (master : Nat) : (b.pico0Ram.transact master req).2.device.size = b.program.size :=
    BusSwitch.View.keeps_device (P := fun r : Ram => r.size = b.program.size)
      (fun r req same => (r.size_transact req).trans same) (.mk master b.pico0Ram) req rfl
  cases side with
  | supervisor =>
    cases block with
    | pico0Ram =>
      cases result
      exact ⟨size _, fun _ => BusSwitch.active_transact _ _ _, fun _ spared => absurd rfl (spared rfl)⟩
    | pico0RamSelect =>
      cases result
      have device : (b.pico0Ram.transactControl req).2.device = b.pico0Ram.device :=
        BusSwitch.device_transactControl _ _
      exact ⟨congrArg Ram.size device, fun other => absurd rfl other, fun _ _ => device⟩
    | _ => cases result; exact ⟨rfl, fun _ => rfl, fun _ _ => rfl⟩
  | coprocessor =>
    cases block with
    | pico0Ram =>
      cases result
      refine ⟨size _, fun _ => BusSwitch.active_transact _ _ _, fun supervised _ => ?_⟩
      have other : coprocessorMaster ≠ b.pico0Ram.active := fun same =>
        absurd (same.trans supervised) (by decide)
      exact congrArg (fun answered => answered.2.device) (BusSwitch.transact_of_ne_active other req)
    | dac0 => cases result; exact ⟨rfl, fun _ => rfl, fun _ _ => rfl⟩
    | adc0 => cases result; exact ⟨rfl, fun _ => rfl, fun _ _ => rfl⟩
    | clParams => cases result; exact ⟨rfl, fun _ => rfl, fun _ _ => rfl⟩
    | _ => cases result

/-! ## Along every history -/

/-- The control registers of the core keep to their widths. -/
theorem Reachable.fits_pico0 (reach : Reachable c b) : b.pico0.control.Fits := by
  refine reach.invariant ?assembled (fun fits => Coprocessor.fits_tick fits _) ?transact
    (fun _ fits => fits) fun activity fits => Coprocessor.fits_act fits activity
  case assembled =>
    intro b assembled
    obtain ⟨_, _, -, -, -, rfl⟩ := assemble_eq_ok_iff.1 assembled
    exact RegisterFile.fits_zero _
  case transact =>
    intro b fits side block req answered result
    by_cases control : block = .pico0
    · rw [control] at result
      cases side with
      | supervisor =>
        cases result
        exact fits.step (.transact .supervisor _)
      | coprocessor => cases result
    · rwa [(transact?_pico0_of_ne result control).1]

/-- The RAM of the core keeps its size, which is that of its region in whole words. -/
theorem Reachable.size_program (reach : Reachable c b) :
    b.program.size = 4 * ((c.ramBytes.toNat + 3) / 4) := by
  refine reach.invariant ?assembled ?tick ?transact (fun _ size => size) fun _ size => size
  case assembled =>
    intro b assembled
    obtain ⟨_, _, -, -, -, rfl⟩ := assemble_eq_ok_iff.1 assembled
    exact congrArg (4 * ·) Array.size_replicate
  case tick =>
    intro b size
    rwa [program_tick]
  case transact =>
    intro b size side block req answered result
    exact (transact?_pico0Ram result).1.trans size

/-! ## A core that rests -/

/-- The core is in reset and knows it, and one master has its RAM. -/
structure Resting (master : Nat) (b : Board) : Prop where
  disabled : b.pico0.enabled = false
  settled : b.pico0.wasEnabled = false
  connected : b.owner .pico0Ram = master

theorem Resting.tick (resting : Resting master b) : Resting master b.tick :=
  ⟨(enabled_tick b).trans resting.disabled, (wasEnabled_tick b).trans resting.disabled,
    (owner_tick b .pico0Ram).trans resting.connected⟩

/-- The supervisor stays outside the region of a block in an event, and nobody reaches the registers of the
block in another way. -/
def Event.Avoids (c : Config) (block : Block) : Event → Prop
  | .access .supervisor op =>
    ∀ region ∈ regionsOf c .supervisor, op.addr.wordBase ∈ region → region.owner ≠ block
  | .core (.control _) => block ≠ .pico0
  | .core (.debug _) => block ≠ .pico0Regs
  | _ => True

/-- The blocks that only the supervisor sees are avoided by the co-processor. -/
theorem Event.Avoids.owner_ne {side : Side} {op : Op} {block : Block}
    (avoids : Event.Avoids c block (.access side op)) (hidden : block = .pico0 ∨ block = .pico0RamSelect)
    {region : AddressMap.Region Block} (present : region ∈ regionsOf c side)
    (inside : op.addr.wordBase ∈ region) : region.owner ≠ block := by
  cases side with
  | supervisor => exact avoids region present inside
  | coprocessor =>
    rintro rfl
    rcases coprocessorRegions_owner present with owner | owner | owner | owner <;>
      rw [owner] at hidden <;> simp at hidden

/-- A core rests on in an event in which the supervisor leaves its reset and its RAM's selection alone. -/
theorem Reachable.resting_step (reach : Reachable c b) {e : Event} (control : e.Avoids c .pico0)
    (selection : e.Avoids c .pico0RamSelect) (resting : Resting master b) : Resting master (b.step e) := by
  cases e with
  | tick => exact resting.tick
  | access side op =>
    show Resting master (b.perform side op).2
    rcases reach.perform_answers side op with
      ⟨-, same⟩ | ⟨-, region, present, inside, answered, result, outcome⟩
    · rwa [same]
    · rw [outcome]
      have listed := reach.mem_map.1 present
      obtain ⟨registers, was⟩ := transact?_pico0_of_ne result (control.owner_ne (.inl rfl) listed inside)
      obtain ⟨disabled, settled, connected⟩ := resting.tick
      refine ⟨?_, was.trans settled, ?_⟩
      · rwa [Coprocessor.enabled, registers]
      · exact ((transact?_pico0Ram result).2.1 (selection.owner_ne (.inr rfl) listed inside)).trans connected
  | sample raw => exact ⟨resting.disabled, resting.settled, resting.connected⟩
  | core activity =>
    have other : ∀ req, activity ≠ .control req := by
      rintro req rfl
      exact control rfl
    obtain ⟨enabled, was⟩ := b.pico0.enabled_act other
    exact ⟨enabled.trans resting.disabled, was.trans resting.settled, resting.connected⟩

/-- While the supervisor has the RAM of the core, nobody else writes it. -/
theorem Reachable.program_step (reach : Reachable c b) {e : Event} (ram : e.Avoids c .pico0Ram)
    (supervised : b.owner .pico0Ram = supervisorMaster) : (b.step e).program = b.program := by
  cases e with
  | tick => exact program_tick b
  | access side op =>
    show (b.perform side op).2.program = b.program
    rcases reach.perform_answers side op with
      ⟨-, same⟩ | ⟨-, region, present, inside, answered, result, outcome⟩
    · rw [same]
    · rw [outcome, ← program_tick b]
      refine (transact?_pico0Ram result).2.2 ((owner_tick b .pico0Ram).trans supervised) ?_
      rintro rfl
      exact ram region (reach.mem_map.1 present) inside
  | sample raw => rfl
  | core activity => rfl

/-- A core rests on while the supervisor leaves its reset and its RAM's selection alone, and its RAM stays what it
is while the supervisor leaves the RAM alone too. -/
theorem Reachable.resting_run (reach : Reachable c b) {events : List Event}
    (avoids : ∀ e ∈ events, e.Avoids c .pico0 ∧ e.Avoids c .pico0RamSelect)
    (resting : Resting supervisorMaster b) :
    Resting supervisorMaster (b.run events) ∧
      ((∀ e ∈ events, e.Avoids c .pico0Ram) → (b.run events).program = b.program) := by
  induction events generalizing b with
  | nil => exact ⟨resting, fun _ => rfl⟩
  | cons e events ih =>
    obtain ⟨control, selection⟩ := avoids e (.head _)
    obtain ⟨rests, keeps⟩ := ih (.step e reach) (fun later listed => avoids later (.tail _ listed))
      (reach.resting_step control selection resting)
    refine ⟨rests, fun ram => ?_⟩
    exact (keeps fun later listed => ram later (.tail _ listed)).trans
      (reach.program_step (ram e (.head _)) resting.connected)

/-! ## A core that runs -/

/-- The core is out of reset and has its RAM. If it has noticed, it shows the first word. -/
structure Running (b : Board) : Prop where
  enabled : b.pico0.enabled = true
  connected : b.owner .pico0Ram = coprocessorMaster
  fetched : b.pico0.wasEnabled = true → b.pico0.Fetched (b.program.wordAt 0)

/-- Once the board has moved on, a core that runs has fetched its first word. -/
theorem Running.fetched_tick (running : Running b) : b.tick.pico0.Fetched (b.program.wordAt 0) := by
  cases was : b.pico0.wasEnabled with
  | true =>
    have settled : b.tick.pico0 = b.pico0 :=
      congrArg Prod.fst (Coprocessor.tick_of_settled (was.trans running.enabled.symm) _)
    rw [settled]
    exact running.fetched was
  | false =>
    let port : BusSwitch.View Ram := .mk coprocessorMaster b.pico0Ram
    have connected : port.Connected := running.connected.symm
    have fetched := Coprocessor.fetched_tick running.enabled was port
    rwa [BusSwitch.View.transact_of_connected connected] at fetched

theorem Running.tick (running : Running b) : Running b.tick := by
  refine ⟨(enabled_tick b).trans running.enabled, (owner_tick b .pico0Ram).trans running.connected,
    fun _ => ?_⟩
  rw [program_tick]
  exact running.fetched_tick

end InstrumentBus.Board
