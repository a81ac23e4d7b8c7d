import InstrumentBus.Coprocessor
import InstrumentBus.Proofs.Bus.History
import InstrumentBus.Proofs.BusSwitch.Selection
import InstrumentBus.Waveform.Player

/-!
# What an autonomous master does to its ports

The waveform player and the co-processor reach other devices through ports, and do nothing to them
but issue transactions. Whatever every transaction on a port keeps, a whole step keeps. A port on a
switch keeps the selection, and keeps the whole switch while another master is connected.
-/

namespace InstrumentBus

variable {ρ δ : Type} [Target ρ] [Target δ] {P : ρ → Prop} {Q : δ → Prop}

namespace Waveform.Player

theorem playPhase_keeps (keepsRam : Target.Keeps P) (keepsDac : Target.Keeps Q) (p : Player)
    {ram : ρ} {dac : δ} (onRam : P ram) (onDac : Q dac) :
    P (p.playPhase ram dac).2.1 ∧ Q (p.playPhase ram dac).2.2 := by
  unfold playPhase
  cases p.phase with
  | load => exact ⟨keepsRam _ _ onRam, keepsDac _ _ onDac⟩
  | transfer =>
    dsimp only
    split
    · exact ⟨onRam, keepsDac _ _ (keepsDac _ _ onDac)⟩
    · exact ⟨onRam, keepsDac _ _ onDac⟩
  | awaitFrame =>
    dsimp only
    split
    · exact ⟨onRam, keepsDac _ _ (keepsDac _ _ onDac)⟩
    · exact ⟨onRam, keepsDac _ _ onDac⟩
  | wait elapsed =>
    dsimp only
    split <;> exact ⟨onRam, onDac⟩

/-- A step of the player keeps on its ports what every transaction keeps. -/
theorem tick_keeps (keepsRam : Target.Keeps P) (keepsDac : Target.Keeps Q) (p : Player)
    (ram : ρ) (dac : δ) (onRam : P ram) (onDac : Q dac) :
    P (p.tick ram dac).2.1 ∧ Q (p.tick ram dac).2.2 := by
  unfold tick
  split
  · split
    · exact ⟨onRam, keepsDac _ _ onDac⟩
    · exact ⟨onRam, onDac⟩
  · cases p.state with
    | ready =>
      dsimp only
      split <;> exact ⟨onRam, onDac⟩
    | finished =>
      dsimp only
      split <;> exact ⟨onRam, onDac⟩
    | running =>
      dsimp only
      split
      · exact playPhase_keeps keepsRam keepsDac p onRam onDac
      · exact ⟨onRam, keepsDac _ _ onDac⟩

end Waveform.Player

/-- A step of the co-processor keeps on its port what every transaction keeps. -/
theorem Coprocessor.tick_keeps (keeps : Target.Keeps P) (c : Coprocessor) (ram : ρ)
    (onRam : P ram) : P (c.tick ram).2 := by
  unfold tick
  dsimp only
  split
  · exact keeps _ _ onRam
  · split <;> exact onRam

/-! ## Ports on a switch -/

namespace BusSwitch

variable {σ : Type} {n : Nat} {s : BusSwitch σ}

/-- One of the `n` masters of a switch is connected. -/
def Seated (n : Nat) (s : BusSwitch σ) : Prop :=
  s.count = n ∧ s.active < n

theorem Seated.transactControl (seated : s.Seated n) (req : Request) :
    (s.transactControl req).2.Seated n := by
  obtain ⟨count, active⟩ := seated
  have current : s.active < s.count := count ▸ active
  refine ⟨(count_transactControl s req).trans count, ?_⟩
  rw [active_transactControl current, ← count]
  exact ownerAfter_lt current req

theorem Seated.transact [Target σ] (seated : s.Seated n) (master : Nat) (req : Request) :
    (s.transact master req).2.Seated n := by
  rw [Seated, count_transact, active_transact]
  exact seated

end BusSwitch

namespace BusSwitch.View

variable {σ : Type} [Target σ]

/-- Whether the master of a port is connected to the device. -/
def Connected (port : View σ) : Prop :=
  port.master = port.switch.active

instance (port : View σ) : Decidable port.Connected :=
  inferInstanceAs (Decidable (port.master = port.switch.active))

/-- What a connected port answers is the answer of the device. -/
theorem transact_of_connected {port : View σ} (connected : port.Connected) (req : Request) :
    Target.transact port req = ((Target.transact port.switch.device req).1,
      { port with switch :=
        { port.switch with device := (Target.transact port.switch.device req).2 } }) := by
  have reached : port.switch.transact port.master req = _ := if_pos connected
  show ((port.switch.transact port.master req).1,
    { port with switch := (port.switch.transact port.master req).2 }) = _
  rw [reached]

/-- A port that is not connected answers as an idle bus does. -/
theorem transact_of_not_connected {port : View σ} (apart : ¬port.Connected) (req : Request) :
    Target.transact port req = (.idle, port) := by
  show ((port.switch.transact port.master req).1,
    { port with switch := (port.switch.transact port.master req).2 }) = _
  rw [transact_of_ne_active apart]

/-- A port keeps of the device what every transaction of the device keeps. -/
theorem keeps_device {P : σ → Prop} (keeps : Target.Keeps P) :
    Target.Keeps fun v : View σ => P v.switch.device := by
  intro v req before
  show P (v.switch.transact v.master req).2.device
  unfold BusSwitch.transact
  split
  · exact keeps _ _ before
  · exact before

theorem keeps_seated (n : Nat) : Target.Keeps fun v : View σ => v.switch.Seated n :=
  fun v req seated => seated.transact v.master req

theorem keeps_active (master : Nat) : Target.Keeps fun v : View σ => v.switch.active = master :=
  fun v req connected => (active_transact v.switch v.master req).trans connected

theorem keeps_of_ne_active (port : View σ) (other : port.master ≠ port.switch.active) :
    Target.Keeps fun v : View σ => v = port := by
  rintro v req rfl
  show { v with switch := (v.switch.transact v.master req).2 } = v
  rw [transact_of_ne_active other]

end BusSwitch.View

end InstrumentBus
