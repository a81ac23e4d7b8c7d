import InstrumentBus.Driver.Adc
import InstrumentBus.Driver.Dac
import InstrumentBus.Proofs.Driver.Register
import InstrumentBus.Transport.Memory
import InstrumentBus.Transport.Probe

/-!
# Operations without ownership

Every exchange with a device on an SPI controller starts with a check of the caller's grant, and so does
every operation that is made of exchanges. An operation whose grant does not pass fails there: it has read
the selection of its own arbiter once, and made no other access (`unowned_operation_reads_selection`).
-/

namespace InstrumentBus

variable {τ α : Type}

theorem Link.perform_locked (a : Action τ α) (t : τ) :
    (Link.locked a).perform (Link.connect t) = (a.perform t).map id Link.connect :=
  rfl

theorem Link.perform_locked_of_error {a : Action τ α} {t after : τ} {e : DriverError}
    (failed : a.perform t = (.error e, after)) :
    (Link.locked a).perform (Link.connect t) = (.error e, Link.connect after) := by
  rw [perform_locked, failed]
  rfl

variable [Transport τ]

namespace RegisterRef

theorem perform_get_of_fault {ref : RegisterRef} {t after : τ} {e : Fault}
    (readWord : Transport.readWord t ref.addr = (.error e, after)) :
    ref.get.perform t = (.error (.fault e), after) :=
  Action.perform_bind_of_error (Action.perform_ofAccess_of_error readWord) _

end RegisterRef

/-! ## The check of a grant -/

namespace Arbiter

variable {arbiter : Arbiter} {g : Grant} {requester : Nat} {t after : τ}

theorem perform_owner_of_readWord {w : Word}
    (readWord : Transport.readWord t arbiter.selection.addr = (.ok w, after)) :
    arbiter.owner.perform t = (.ok (w &&& widthMask arbiter.selection.width).toNat, after) :=
  Action.perform_bind_of_ok (RegisterRef.perform_get_of_readWord readWord) _

theorem perform_owner_of_fault {e : Fault}
    (readWord : Transport.readWord t arbiter.selection.addr = (.error e, after)) :
    arbiter.owner.perform t = (.error (.fault e), after) :=
  Action.perform_bind_of_error (RegisterRef.perform_get_of_fault readWord) _

/-- Whether a grant proves on a transport that `requester` is connected: this arbiter issued it, to
`requester`, and the selection reads `requester`. -/
def Accepts (arbiter : Arbiter) (g : Grant) (requester : Nat) (t : τ) : Prop :=
  g.arbiter.id = arbiter.id ∧ g.master = requester ∧ (arbiter.owner.perform t).1 = .ok requester

/-- A grant that is not accepted does not pass the check, whichever of its parts is wrong. -/
theorem perform_check_of_not_accepts (unowned : ¬arbiter.Accepts g requester t) {owner : Nat}
    (reads : arbiter.owner.perform t = (.ok owner, after)) :
    (arbiter.check g requester).perform t =
      (.error (.notOwner arbiter.name owner requester), after) := by
  have fails : ¬(g.arbiter.id = arbiter.id ∧ g.master = requester ∧ owner = requester) := by
    rintro ⟨issued, holder, connected⟩
    refine unowned ⟨issued, holder, ?_⟩
    rw [reads, connected]
  rw [check, Action.perform_bind_of_ok reads, if_neg fails]
  rfl

theorem perform_check_of_accepts (accepted : arbiter.Accepts g requester t) :
    (arbiter.check g requester).perform t = (.ok (), (arbiter.owner.perform t).2) := by
  obtain ⟨issued, holder, connected⟩ := accepted
  have reads : arbiter.owner.perform t = (.ok requester, (arbiter.owner.perform t).2) :=
    Prod.ext connected rfl
  rw [check, Action.perform_bind_of_ok reads, if_pos ⟨issued, holder, rfl⟩]
  rfl

end Arbiter

/-! ## Operations that need a grant -/

/-- The operations of one driver of the converter, which keeps to its coding in all of them. -/
inductive DacDriver.Operation (d : DacDriver) (g : Grant) : {α : Type} → Action (Link τ) α → Prop
  | writeControl (c : Ad5791.Control) : Operation d g (d.writeControl g c)
  | readControl : Operation d g (d.readControl g)
  | command (s : Ad5791.Software) : Operation d g (d.command g s)
  | reset : Operation d g (d.reset g)
  | clear : Operation d g (d.clear g)
  | load : Operation d g (d.load g)
  | configure : Operation d g (d.configure g)
  | setNumber (n : Int) : Operation d g (d.setNumber g n)
  | number : Operation d g (d.number g)
  | setVolts (volts : Float) : Operation d g (d.setVolts g volts)
  | volts : Operation d g (d.volts g)
  | setClearCode (n : Int) : Operation d g (d.setClearCode g n)
  | clearCode : Operation d g (d.clearCode g)

/-- The operations of the drivers that need a grant, each with the controller that it is made on. -/
inductive SpiDriver.Operation (g : Grant) : SpiDriver → {α : Type} → Action (Link τ) α → Prop
  | send (spi : SpiDriver) (frame : Word) : Operation g spi (spi.send g frame)
  | converter {d : DacDriver} {α : Type} {a : Action (Link τ) α} :
    d.Operation g a → Operation g d.spi a
  | sampledNumber (d : AdcDriver) : Operation g d.spi (d.number g)
  | sampledVolts (d : AdcDriver) : Operation g d.spi (d.volts g)

section Refused

variable {g : Grant} {t after : τ} {e : DriverError}

theorem SpiDriver.perform_exchange_of_refused {spi : SpiDriver}
    (refused : (spi.arbiter.check g supervisorIndex).perform t = (.error e, after)) (frame : Word) :
    (spi.exchange g frame).perform t = (.error e, after) :=
  Action.perform_bind_of_error refused _

theorem SpiDriver.perform_send_of_refused {spi : SpiDriver}
    (refused : (spi.arbiter.check g supervisorIndex).perform t = (.error e, after)) (frame : Word) :
    (spi.send g frame).perform (Link.connect t) = (.error e, Link.connect after) :=
  Link.perform_locked_of_error (perform_exchange_of_refused refused frame)

theorem DacDriver.perform_readBack_of_refused {d : DacDriver}
    (refused : (d.spi.arbiter.check g supervisorIndex).perform t = (.error e, after))
    (r : Ad5791.Register) : (d.readBack g r).perform t = (.error e, after) :=
  Action.perform_bind_of_error (SpiDriver.perform_exchange_of_refused refused _) _

theorem DacDriver.perform_readNumber_of_refused {d : DacDriver}
    (refused : (d.spi.arbiter.check g supervisorIndex).perform t = (.error e, after))
    (r : Ad5791.Register) :
    (d.readNumber g r).perform (Link.connect t) = (.error e, Link.connect after) :=
  Action.perform_bind_of_error
    (Link.perform_locked_of_error (perform_readBack_of_refused refused r)) _

/-- An operation of the converter's driver ends where the check of its grant fails, with the same error: each
starts with an exchange, alone or as the first of several under one lock. -/
theorem DacDriver.Operation.perform_of_refused {d : DacDriver} {a : Action (Link τ) α}
    (operation : d.Operation g a)
    (refused : (d.spi.arbiter.check g supervisorIndex).perform t = (.error e, after)) :
    a.perform (Link.connect t) = (.error e, Link.connect after) := by
  have sends := SpiDriver.perform_send_of_refused refused
  cases operation with
  | writeControl c =>
    refine Action.perform_bind_of_error (Link.perform_locked_of_error ?_) _
    exact Action.perform_bind_of_error (SpiDriver.perform_exchange_of_refused refused _) _
  | readControl =>
    have reads := d.perform_readBack_of_refused refused .control
    exact Action.perform_bind_of_error (Link.perform_locked_of_error reads) _
  | command s => exact Action.perform_bind_of_error (sends _) _
  | reset => exact Action.perform_bind_of_error (sends _) _
  | clear => exact Action.perform_bind_of_error (sends _) _
  | load => exact Action.perform_bind_of_error (sends _) _
  | configure =>
    have resets : (d.reset g).perform (Link.connect t) = (.error e, Link.connect after) :=
      Action.perform_bind_of_error (sends _) _
    exact Action.perform_bind_of_error resets _
  | setNumber n => exact Action.perform_bind_of_error (sends _) _
  | number => exact d.perform_readNumber_of_refused refused .dac
  | setVolts volts =>
    have sets : (d.setNumber g (d.numberOfVolts volts)).perform (Link.connect t) =
        (.error e, Link.connect after) := Action.perform_bind_of_error (sends _) _
    exact Action.perform_bind_of_error sets _
  | volts => exact Action.perform_bind_of_error (d.perform_readNumber_of_refused refused .dac) _
  | setClearCode n => exact Action.perform_bind_of_error (sends _) _
  | clearCode => exact d.perform_readNumber_of_refused refused .clearCode

/-- So does every operation that needs a grant. -/
theorem SpiDriver.Operation.perform_of_refused {spi : SpiDriver} {a : Action (Link τ) α}
    (operation : spi.Operation g a)
    (refused : (spi.arbiter.check g supervisorIndex).perform t = (.error e, after)) :
    a.perform (Link.connect t) = (.error e, Link.connect after) := by
  have sends := SpiDriver.perform_send_of_refused refused
  cases operation with
  | send _ frame => exact sends frame
  | converter operation => exact operation.perform_of_refused refused
  | sampledNumber d => exact Action.perform_bind_of_error (sends _) _
  | sampledVolts d =>
    have samples : (d.number g).perform (Link.connect t) = (.error e, Link.connect after) :=
      Action.perform_bind_of_error (sends _) _
    exact Action.perform_bind_of_error samples _

end Refused

/-! ## One read of the selection -/

/-- An operation reads the selection in front of a controller and fails: as not owned if the read
succeeds, and with the fault of the read if it does not. Nothing else happens to the transport. -/
structure SpiDriver.TurnsAway (spi : SpiDriver) (a : Action (Link τ) α) (t : τ) : Prop where
  notOwner : ∀ w after, Transport.readWord t spi.arbiter.selection.addr = (.ok w, after) →
    a.perform (Link.connect t) =
      (.error (.notOwner spi.arbiter.name (w &&& widthMask spi.arbiter.selection.width).toNat
        supervisorIndex), Link.connect after)
  faulted : ∀ e after, Transport.readWord t spi.arbiter.selection.addr = (.error e, after) →
    a.perform (Link.connect t) = (.error (.fault e), Link.connect after)

namespace SpiDriver

variable {spi : SpiDriver} {g : Grant}

theorem Operation.turnsAway {a : Action (Link τ) α} (operation : spi.Operation g a) {t : τ}
    (unowned : ¬spi.arbiter.Accepts g supervisorIndex t) : spi.TurnsAway a t := by
  constructor
  · intro w after reads
    apply operation.perform_of_refused
    exact Arbiter.perform_check_of_not_accepts unowned (Arbiter.perform_owner_of_readWord reads)
  · intro e after fails
    apply operation.perform_of_refused
    exact Action.perform_bind_of_error (Arbiter.perform_owner_of_fault fails) _

/-- The transport that is left is the one that the read leaves. -/
theorem TurnsAway.bus {a : Action (Link τ) α} {t : τ} (turned : spi.TurnsAway a t) :
    (a.perform (Link.connect t)).2.bus =
      (Transport.readWord t spi.arbiter.selection.addr).2 := by
  rcases read : Transport.readWord t spi.arbiter.selection.addr with ⟨e | w, after⟩
  · rw [turned.faulted e after read]
    rfl
  · rw [turned.notOwner w after read]
    rfl

end SpiDriver

/-- A probe records the read of a word, whatever becomes of it. -/
theorem Probe.record_readWord (p : Probe τ) (addr : Addr) :
    (Transport.readWord p addr).2.record =
      p.record ++ [.readWord addr (Transport.readWord p addr).1] := by
  have events : (Transport.readWord p addr).2.events =
      .readWord addr (Transport.readWord p addr).1 :: p.events := by
    show (p.observe addr (.readWord addr) fun t => Transport.readWord t addr).2.events =
      .readWord addr (p.observe addr (.readWord addr) fun t => Transport.readWord t addr).1 ::
        p.events
    unfold observe
    split <;> rfl
  rw [record, events, List.reverse_cons]
  rfl

/-- The first access of a probe that was attached to a transport is the only one that it recorded. -/
theorem Probe.readWord_attach (t : τ) (addr : Addr) :
    Transport.readWord (attach t) addr = ((Transport.readWord t addr).1,
      { attach (Transport.readWord t addr).2 with
        events := [.readWord addr (Transport.readWord t addr).1] }) :=
  rfl

/-- Where the arbiter of a controller does not accept a grant, because another arbiter issued it, because
it is for another master or because the supervisor is not connected, every operation with the grant is
turned away. It fails after one read of the arbiter's selection, on every transport; a probe in between
records that read and no other access. -/
theorem unowned_operation_reads_selection (spi : SpiDriver) (g : Grant) (τ : Type) [Transport τ] :
    (∀ (t : τ) (α : Type) (a : Action (Link τ) α), spi.Operation g a →
      ¬spi.arbiter.Accepts g supervisorIndex t → spi.TurnsAway a t) ∧
    ∀ (p : Probe τ) (α : Type) (a : Action (Link (Probe τ)) α), spi.Operation g a →
      ¬spi.arbiter.Accepts g supervisorIndex p →
      spi.TurnsAway a p ∧
        (a.perform (Link.connect p)).2.bus.record =
          p.record ++ [.readWord spi.arbiter.selection.addr
            (Transport.readWord p spi.arbiter.selection.addr).1] := by
  constructor
  · intro t α a operation unowned
    exact operation.turnsAway unowned
  · intro p α a operation unowned
    have turned := operation.turnsAway unowned
    refine ⟨turned, ?_⟩
    rw [turned.bus, Probe.record_readWord]

/-- A memory that backs the selection reads zero there. A frame with a grant of another arbiter and the
set-up of the DAC with one for another master are turned away as not owned. Where the selection is not
backed, a sample is turned away too, after the one read that fails. -/
theorem foreign_grant_is_turned_away :
    let selection : RegisterRef := ⟨"dac0_pi.master_select", 0x2200, 2, .readWrite, .supervisor⟩
    let register : RegisterRef := ⟨"dac0.arm", 0x2008, 1, .readWrite, .supervisor⟩
    let spi : SpiDriver := ⟨"dac0", ⟨0, "dac0", selection⟩, register, register, register, register,
      register, 10⟩
    let backed := Memory.ofRanges [(0x2200, 4)]
    let empty := Memory.ofRanges []
    (spi.send ⟨⟨1, "dac0", selection⟩, 0⟩ 7).perform (Link.connect backed) =
        (.error (.notOwner "dac0" 0 0), Link.connect backed) ∧
      ((DacDriver.mk spi .twosComplement (-10.0) 10.0).configure ⟨spi.arbiter, 2⟩).perform
          (Link.connect backed) = (.error (.notOwner "dac0" 0 0), Link.connect backed) ∧
      (((AdcDriver.mk spi 18 10.24 true).volts ⟨spi.arbiter, 0⟩).perform
        (Link.connect (Probe.attach empty))).2.bus.record =
          [.readWord 0x2200 (.error (.unmapped 0x2200))] := by
  intro selection register spi backed empty
  have reads : Transport.readWord backed 0x2200 = (.ok 0, backed) := by
    have bytes : Memory.wordAddresses 0x2200 = [0x2200, 0x2201, 0x2202, 0x2203] := by decide
    show (backed.readWord 0x2200, backed) = _
    rw [Memory.readWord, bytes]
    simp [Memory.byte, Memory.byte?, Memory.backs, backed, Memory.ofRanges, Memory.wrapped]
    rfl
  have first : ((0 : Word) &&& widthMask spi.arbiter.selection.width).toNat = 0 := by decide
  refine ⟨?_, ?_, ?_⟩
  · have foreign : ¬spi.arbiter.Accepts ⟨⟨1, "dac0", selection⟩, 0⟩ supervisorIndex backed :=
      fun accepted => absurd accepted.1 (by decide)
    have refused := ((unowned_operation_reads_selection spi ⟨⟨1, "dac0", selection⟩, 0⟩ Memory).1
      backed _ _ (.send spi 7) foreign).notOwner 0 backed reads
    rwa [first] at refused
  · have other : ¬spi.arbiter.Accepts ⟨spi.arbiter, 2⟩ supervisorIndex backed :=
      fun accepted => absurd accepted.2.1 (by decide)
    have refused := ((unowned_operation_reads_selection spi ⟨spi.arbiter, 2⟩ Memory).1
      backed _ _ (.converter (d := ⟨spi, .twosComplement, -10.0, 10.0⟩) .configure) other).notOwner 0 backed reads
    rwa [first] at refused
  · have fails : Transport.readWord (Probe.attach empty) 0x2200 =
        (.error (.unmapped 0x2200), (Transport.readWord (Probe.attach empty) 0x2200).2) := rfl
    have unread : ¬spi.arbiter.Accepts ⟨spi.arbiter, 0⟩ supervisorIndex (Probe.attach empty) := by
      rintro ⟨-, -, connected⟩
      rw [Arbiter.perform_owner_of_fault fails] at connected
      cases connected
    have turned := (unowned_operation_reads_selection spi ⟨spi.arbiter, 0⟩ Memory).2 (.attach empty)
      _ _ (.sampledVolts ⟨spi, 18, 10.24, true⟩) unread
    have selected : spi.arbiter.selection.addr = 0x2200 := rfl
    rw [turned.2, selected, fails]
    rfl

end InstrumentBus
