import InstrumentBus.Driver.Waveform
import InstrumentBus.Proofs.Driver.Refusal

/-!
# Conditions before and after an action

`Action.Meets P a Q E` is a Hoare triple with two ends: from a state with `P` the action `a` succeeds with
a result and a state that `Q` relates, or fails with an error and a state that `E` relates. Where only one
condition is followed, which the action keeps however it ends, `Action.Keeps` says the same with less. A
driver's operation keeps what its accesses keep: all reads, and the writes to the registers that it is for.
-/

namespace InstrumentBus

namespace Action

variable {σ α β : Type} {P P' : σ → Prop} {Q Q' : α → σ → Prop} {R : β → σ → Prop}
  {E E' : DriverError → σ → Prop} {a : Action σ α} {next : α → Action σ β}

/-- From a state with `P` the action ends in a state that meets `Q` with its result or `E` with its
error. -/
structure Meets (P : σ → Prop) (a : Action σ α) (Q : α → σ → Prop) (E : DriverError → σ → Prop) :
    Prop where
  ok : ∀ {s v after}, P s → a.perform s = (.ok v, after) → Q v after
  error : ∀ {s e after}, P s → a.perform s = (.error e, after) → E e after

/-- However the action ends, it leaves a state with `P` if it found one. -/
def Keeps (P : σ → Prop) (a : Action σ α) : Prop :=
  ∀ s, P s → P (a.perform s).2

theorem Meets.of_perform (performs : ∀ s, P s →
    (∃ v after, a.perform s = (.ok v, after) ∧ Q v after) ∨
    (∃ e after, a.perform s = (.error e, after) ∧ E e after)) : Meets P a Q E := by
  constructor
  · intro s v after before outcome
    rcases performs s before with ⟨v', after', same, met⟩ | ⟨e, after', other, -⟩
    · rw [outcome] at same
      cases same
      exact met
    · rw [outcome] at other
      cases other
  · intro s e after before outcome
    rcases performs s before with ⟨v, after', other, -⟩ | ⟨e', after', same, met⟩
    · rw [outcome] at other
      cases other
    · rw [outcome] at same
      cases same
      exact met

theorem Meets.mono (meets : Meets P a Q E) (before : ∀ s, P' s → P s) (ok : ∀ v s, Q v s → Q' v s)
    (error : ∀ e s, E e s → E' e s) : Meets P' a Q' E' :=
  ⟨fun start outcome => ok _ _ (meets.ok (before _ start) outcome),
    fun start outcome => error _ _ (meets.error (before _ start) outcome)⟩

/-- More may hold before an action than it needs. -/
theorem Meets.weaken (meets : Meets P a Q E) (before : ∀ s, P' s → P s) : Meets P' a Q E :=
  meets.mono before (fun _ _ met => met) fun _ _ met => met

/-- An action that never fails meets whatever its errors are to meet. -/
theorem Meets.unfailing (meets : Meets P a Q fun _ _ => False) : Meets P a Q E :=
  meets.mono (fun _ before => before) (fun _ _ met => met) fun _ _ impossible => impossible.elim

/-- An action whose errors are all impossible never fails. -/
theorem Meets.of_no_error (meets : Meets P a Q E) (never : ∀ e s, ¬E e s) : Meets P a Q fun _ _ => False :=
  meets.mono (fun _ before => before) (fun _ _ met => met) fun e s met => never e s met

/-- What holds before an action may be some one of several conditions. -/
theorem Meets.of_forall {ι : Type} {P : ι → σ → Prop} (meets : ∀ x, Meets (P x) a Q E) :
    Meets (fun s => ∃ x, P x s) a Q E :=
  ⟨fun ⟨x, before⟩ outcome => (meets x).ok before outcome,
    fun ⟨x, before⟩ outcome => (meets x).error before outcome⟩

theorem meets_pure {v : α} (after : ∀ s, P s → Q v s) : Meets P (pure v) Q E :=
  .of_perform fun s before => .inl ⟨v, s, rfl, after s before⟩

theorem meets_throw {e : DriverError} (after : ∀ s, P s → E e s) : Meets P (throw e : Action σ α) Q E :=
  .of_perform fun s before => .inr ⟨e, s, rfl, after s before⟩

theorem Meets.bind (first : Meets P a Q E) (rest : ∀ v, Meets (Q v) (next v) R E) :
    Meets P (a >>= next) R E := by
  apply Meets.of_perform
  intro s before
  rcases outcome : a.perform s with ⟨e | v, middle⟩
  · exact .inr ⟨e, middle, perform_bind_of_error outcome next, first.error before outcome⟩
  · rw [perform_bind_of_ok outcome]
    have met := first.ok before outcome
    rcases ended : (next v).perform middle with ⟨e | w, after⟩
    · exact .inr ⟨e, after, rfl, (rest v).error met ended⟩
    · exact .inl ⟨w, after, rfl, (rest v).ok met ended⟩

/-- What every poll that misses keeps holds until the poll that does not, or until the polls run out. -/
theorem meets_pollUntil {condition : Action σ Bool} {Q : σ → Prop} {timeout : DriverError}
    (poll : Meets P condition (fun held s => if held = true then Q s else P s) E)
    (late : ∀ s, P s → E timeout s) (limit : Nat) :
    Meets P (pollUntil timeout condition limit : Action σ Unit) (fun _ => Q) E := by
  induction limit with
  | zero => exact meets_throw late
  | succ limit ih =>
    refine poll.bind fun held => ?_
    cases held with
    | true => exact meets_pure fun _ met => met
    | false => exact ih

/-- A wait for a condition that holds at once ends with the first poll, if there is one. -/
theorem Meets.waitFor {condition : Action σ Bool} {Q : σ → Prop}
    (poll : Meets P condition (fun held s => held = true ∧ Q s) E) (name : String) {limit : Nat}
    (polls : 0 < limit) : Meets P (InstrumentBus.waitFor name limit condition) (fun _ => Q) E := by
  obtain ⟨limit, rfl⟩ := Nat.exists_eq_succ_of_ne_zero (Nat.ne_of_gt polls)
  refine poll.bind fun held => ?_
  cases held with
  | true => exact meets_pure fun _ met => met.2
  | false => exact .of_perform fun _ missed => absurd missed.1 Bool.false_ne_true

/-- An action that never fails has a result. -/
theorem Meets.succeeds (meets : Meets P a Q fun _ _ => False) {s : σ} (before : P s) :
    ∃ v after, a.perform s = (.ok v, after) ∧ Q v after := by
  rcases outcome : a.perform s with ⟨e | v, after⟩
  · exact (meets.error before outcome).elim
  · exact ⟨v, after, rfl, meets.ok before outcome⟩

/-- Where errors do not matter, an error meets what is asked of it. -/
theorem Meets.ignoring_errors (meets : Meets P a Q E) : Meets P a Q fun _ _ => True :=
  meets.mono (fun _ before => before) (fun _ _ met => met) fun _ _ _ => trivial

/-! ## What an action keeps -/

theorem keeps_iff_meets : Keeps P a ↔ Meets P a (fun _ => P) (fun _ => P) := by
  constructor
  · intro keeps
    have kept {s : σ} {outcome : Except DriverError α × σ} (before : P s)
        (performed : a.perform s = outcome) : P outcome.2 := performed ▸ keeps s before
    exact ⟨kept, kept⟩
  · intro meets s before
    rcases outcome : a.perform s with ⟨e | v, after⟩
    · exact meets.error before outcome
    · exact meets.ok before outcome

/-- Two conditions are followed one by one. -/
theorem Meets.and_keeps (meets : Meets P a Q E) (keeps : Keeps P' a) :
    Meets (fun s => P s ∧ P' s) a (fun v s => Q v s ∧ P' s) (fun e s => E e s ∧ P' s) := by
  have kept := keeps_iff_meets.1 keeps
  exact ⟨fun before outcome => ⟨meets.ok before.1 outcome, kept.ok before.2 outcome⟩,
    fun before outcome => ⟨meets.error before.1 outcome, kept.error before.2 outcome⟩⟩

theorem keeps_pure (v : α) : Keeps P (pure v : Action σ α) :=
  fun _ before => before

theorem keeps_throw (e : DriverError) : Keeps P (throw e : Action σ α) :=
  fun _ before => before

theorem keeps_throw_bind (e : DriverError) (next : α → Action σ β) : Keeps P (throw e >>= next) :=
  fun _ before => before

theorem keeps_ofExcept (r : Except DriverError α) : Keeps P (ofExcept r) :=
  fun _ before => before

theorem keeps_ofAccess {f : σ → Except Fault α × σ} (access : ∀ s, P s → P (f s).2) :
    Keeps P (ofAccess f) :=
  access

theorem Keeps.bind (first : Keeps P a) (rest : ∀ v, Keeps P (next v)) : Keeps P (a >>= next) :=
  keeps_iff_meets.2 ((keeps_iff_meets.1 first).bind fun v => keeps_iff_meets.1 (rest v))

theorem Keeps.waitFor {condition : Action σ Bool} (poll : Keeps P condition) (name : String)
    (limit : Nat) : Keeps P (InstrumentBus.waitFor name limit condition) := by
  refine keeps_iff_meets.2 (meets_pollUntil (E := fun _ => P) ?_ (fun _ before => before) limit)
  refine (keeps_iff_meets.1 poll).mono (fun _ before => before) (fun held s met => ?_) fun _ _ met => met
  cases held <;> exact met

end Action

/-! ## Under the lock -/

open InstrumentBus.Action (Keeps Meets)

variable {τ : Type}

/-- The transport behind a live link meets a condition. -/
def Link.Live (P : τ → Prop) (l : Link τ) : Prop :=
  l.health = .live ∧ P l.bus

theorem Link.live_connect {P : τ → Prop} {t : τ} (met : P t) : Link.Live P (.connect t) :=
  ⟨rfl, met⟩

/-- Under the lock of a live link an action does what it does on the transport. -/
theorem Link.perform_locked_of_live {α : Type} {l : Link τ} (live : l.health = .live) (a : Action τ α) :
    (Link.locked a).perform l = (a.perform l.bus).map id fun bus => { l with bus } := by
  obtain ⟨health, bus⟩ := l
  obtain rfl : health = .live := live
  rfl

theorem Action.Meets.locked {α : Type} {P : τ → Prop} {a : Action τ α} {Q : α → τ → Prop}
    {E : DriverError → τ → Prop} (meets : Meets P a Q E) :
    Meets (Link.Live P) (Link.locked a) (fun v => Link.Live (Q v)) (fun e => Link.Live (E e)) := by
  apply Meets.of_perform
  rintro l ⟨live, before⟩
  rw [Link.perform_locked_of_live live]
  rcases outcome : a.perform l.bus with ⟨e | v, after⟩
  · exact .inr ⟨e, _, rfl, live, meets.error before outcome⟩
  · exact .inl ⟨v, _, rfl, live, meets.ok before outcome⟩

/-- Under the lock too an action that never fails meets whatever its errors are to meet. -/
theorem Action.Meets.locked_unfailing {α : Type} {P : τ → Prop} {a : Action τ α} {Q : α → τ → Prop}
    {E : DriverError → Link τ → Prop} (meets : Meets P a Q fun _ _ => False) :
    Meets (Link.Live P) (Link.locked a) (fun v => Link.Live (Q v)) E :=
  meets.locked.mono (fun _ before => before) (fun _ _ met => met) fun _ _ impossible => impossible.2.elim

theorem Action.Keeps.locked {α : Type} {P : τ → Prop} {a : Action τ α} (keeps : Keeps P a) :
    Keeps (Link.Live P) (Link.locked a) :=
  keeps_iff_meets.2 (keeps_iff_meets.1 keeps).locked

/-! ## Accesses -/

variable [Transport τ] {I : τ → Prop}

/-- No read of a word breaks `I`. -/
def Transport.ReadsKeep (I : τ → Prop) : Prop :=
  ∀ addr t, I t → I (Transport.readWord t addr).2

/-- No write of a word at `addr` breaks `I`. -/
def Transport.WritesKeep (I : τ → Prop) (addr : Addr) : Prop :=
  ∀ w t, I t → I (Transport.writeWord t addr w).2

open Transport (ReadsKeep WritesKeep)

theorem Transport.keeps_writeWords {addr : Addr} {ws : List Word}
    (writes : ∀ i < ws.length, WritesKeep I (addr + 4 * BitVec.ofNat 32 i)) (t : τ) (before : I t) :
    I (Transport.writeWords t addr ws).2 := by
  induction ws generalizing addr t with
  | nil => exact before
  | cons w ws ih =>
    have first : I (Transport.writeWord t addr w).2 := by
      have here := writes 0 (Nat.succ_pos _) w t before
      rwa [show addr + 4 * BitVec.ofNat 32 0 = addr by simp] at here
    have rest : ∀ i < ws.length, WritesKeep I (addr + 4 + 4 * BitVec.ofNat 32 i) := by
      intro i inside
      have next : addr + 4 + 4 * BitVec.ofNat 32 i = addr + 4 * BitVec.ofNat 32 (i + 1) := by
        rw [BitVec.ofNat_add]
        bv_omega
      rw [next]
      exact writes (i + 1) (Nat.succ_lt_succ inside)
    rw [writeWords]
    rcases outcome : Transport.writeWord t addr w with ⟨e | ⟨⟩, after⟩
    · rw [outcome] at first
      exact first
    · rw [outcome] at first
      exact ih rest after first

namespace RegisterRef

variable {ref : RegisterRef}

theorem keeps_get (reads : ReadsKeep I) (ref : RegisterRef) : Keeps I ref.get :=
  (Action.keeps_ofAccess fun t => reads ref.addr t).bind fun _ => Action.keeps_pure _

theorem keeps_reads (reads : ReadsKeep I) (ref : RegisterRef) (w : Word) : Keeps I (ref.reads w) :=
  (keeps_get reads ref).bind fun _ => Action.keeps_pure _

theorem keeps_set_word {w : Word}
    (writes : ∀ t, I t → I (Transport.writeWord t ref.addr (w &&& widthMask ref.width)).2) :
    Keeps I (ref.set w) :=
  (Action.keeps_ofExcept _).bind fun _ => Action.keeps_ofAccess writes

theorem keeps_set (writes : WritesKeep I ref.addr) (w : Word) : Keeps I (ref.set w) :=
  keeps_set_word fun t => writes _ t

end RegisterRef

namespace Arbiter

variable {arbiter : Arbiter}

theorem keeps_owner (reads : ReadsKeep I) (arbiter : Arbiter) : Keeps I arbiter.owner :=
  (RegisterRef.keeps_get reads _).bind fun _ => Action.keeps_pure _

theorem keeps_check (reads : ReadsKeep I) (arbiter : Arbiter) (g : Grant) (requester : Nat) :
    Keeps I (arbiter.check g requester) := by
  refine (keeps_owner reads arbiter).bind fun owner => ?_
  split
  · exact Action.keeps_pure _
  · exact Action.keeps_throw _

/-- A connection is a write of the selection and a read of the owner, who is the master or else the connection
fails. -/
theorem meets_connect {P Q : τ → Prop} {R : Nat → τ → Prop} {E : DriverError → τ → Prop} {master : Nat}
    (sets : Meets P (arbiter.selection.set (BitVec.ofNat 32 master)) (fun _ => Q) E)
    (reads : Meets Q arbiter.owner R E) (large : 2 ^ 32 ≤ master → ∀ e t, P t → E e t)
    (other : ∀ owner e t, owner ≠ master → R owner t → E e t) :
    Meets P (arbiter.connect master) (fun g t => g = ⟨arbiter, master⟩ ∧ R master t) E := by
  unfold connect
  split
  · next many => exact .of_perform fun t before => .inr ⟨_, t, rfl, large many _ t before⟩
  · refine sets.bind fun _ => reads.bind fun owner => ?_
    split
    · next same => exact Action.meets_pure fun t met => ⟨rfl, same ▸ met⟩
    · next apart => exact Action.meets_throw fun t met => other owner _ t apart met

theorem keeps_connect (reads : ReadsKeep I) (writes : WritesKeep I arbiter.selection.addr)
    (master : Nat) : Keeps I (arbiter.connect master) := by
  have sets := Action.keeps_iff_meets.1 (RegisterRef.keeps_set writes (BitVec.ofNat 32 master))
  have names := Action.keeps_iff_meets.1 (keeps_owner reads arbiter)
  have connects := meets_connect sets names (fun _ _ _ before => before) fun _ _ _ _ met => met
  exact Action.keeps_iff_meets.2 (connects.mono (fun _ before => before) (fun _ _ met => met.2) fun _ _ met => met)

end Arbiter

/-! ## Operations that need a grant -/

section Operations

variable {g : Grant}

/-- An exchange keeps what reads, writes to `arm` and the load of its frame keep. -/
theorem SpiDriver.keeps_exchange_of_load {spi : SpiDriver} (reads : ReadsKeep I)
    (arms : WritesKeep I spi.arm.addr) {frame : Word}
    (loads : ∀ t, I t →
      I (Transport.writeWord t spi.toSlave.addr (frame &&& widthMask spi.toSlave.width)).2)
    (g : Grant) : Keeps I (spi.exchange g frame) := by
  have poll (ref : RegisterRef) (name : String) : Keeps I (waitFor name spi.pollLimit (ref.reads 1)) :=
    (RegisterRef.keeps_reads reads ref 1).waitFor name spi.pollLimit
  refine (Arbiter.keeps_check reads _ g _).bind fun _ => ?_
  refine (RegisterRef.keeps_set arms 0).bind fun _ => (poll _ _).bind fun _ => ?_
  refine (RegisterRef.keeps_set_word loads).bind fun _ => ?_
  refine (RegisterRef.keeps_set arms 1).bind fun _ => (poll _ _).bind fun _ => ?_
  refine (RegisterRef.keeps_get reads _).bind fun _ => ?_
  exact (RegisterRef.keeps_set arms 0).bind fun _ => Action.keeps_pure _

theorem SpiDriver.keeps_exchange {spi : SpiDriver} (reads : ReadsKeep I)
    (arms : WritesKeep I spi.arm.addr) (loads : WritesKeep I spi.toSlave.addr) (g : Grant)
    (frame : Word) : Keeps I (spi.exchange g frame) :=
  keeps_exchange_of_load reads arms (fun t => loads _ t) g

theorem SpiDriver.keeps_send {spi : SpiDriver} {frame : Word} (exchange : Keeps I (spi.exchange g frame)) :
    Keeps (Link.Live I) (spi.send g frame) :=
  exchange.locked

namespace DacDriver

/-- The frames that a driver of the converter sends. -/
inductive Sends (d : DacDriver) : Word → Prop
  | empty : Sends d 0
  | read (r : Ad5791.Register) : Sends d (Ad5791.readFrame r)
  | software (s : Ad5791.Software) : Sends d (Ad5791.writeFrame .software (WordCode.encode s))
  | number {r : Ad5791.Register} (n : Int) : r ≠ .control →
    Sends d (Ad5791.writeFrame r (d.coding.encode n))
  | control (c : Ad5791.Control) :
    Sends d (Ad5791.writeFrame .control (WordCode.encode (d.settings c) &&& Ad5791.dataMask))

variable {d : DacDriver} (exchange : ∀ frame, d.Sends frame → Keeps I (d.spi.exchange g frame))
include exchange

theorem keeps_readBack (r : Ad5791.Register) : Keeps I (d.readBack g r) :=
  (exchange _ (.read r)).bind fun _ => (exchange _ .empty).bind fun _ => Action.keeps_pure _

theorem keeps_command (s : Ad5791.Software) : Keeps (Link.Live I) (d.command g s) :=
  (SpiDriver.keeps_send (exchange _ (.software s))).bind fun _ => Action.keeps_pure _

theorem keeps_writeNumber {r : Ad5791.Register} (other : r ≠ .control) (n : Int) :
    Keeps (Link.Live I) (d.writeNumber g r n) :=
  (SpiDriver.keeps_send (exchange _ (.number n other))).bind fun _ => Action.keeps_pure _

theorem keeps_readNumber (r : Ad5791.Register) : Keeps (Link.Live I) (d.readNumber g r) :=
  (keeps_readBack exchange r).locked.bind fun _ => Action.keeps_pure _

theorem keeps_writeControl (c : Ad5791.Control) : Keeps (Link.Live I) (d.writeControl g c) := by
  refine Keeps.bind (Keeps.locked ?_) fun _ => Action.keeps_pure _
  refine (exchange _ (.control c)).bind fun _ => (keeps_readBack exchange .control).bind fun read => ?_
  split
  · exact Action.keeps_throw _
  · exact Action.keeps_pure _

theorem keeps_readControl : Keeps (Link.Live I) (d.readControl g) := by
  refine (keeps_readBack exchange .control).locked.bind fun w => ?_
  split
  · exact Action.keeps_pure _
  · exact Action.keeps_throw _

/-- An operation of the driver keeps what the exchanges keep of the frames that the driver sends. -/
theorem Operation.keeps {α : Type} {a : Action (Link τ) α} (operation : d.Operation g a) :
    Keeps (Link.Live I) a := by
  have code : Ad5791.Register.dac ≠ .control := by decide
  have clearCode : Ad5791.Register.clearCode ≠ .control := by decide
  cases operation with
  | writeControl c => exact keeps_writeControl exchange c
  | readControl => exact keeps_readControl exchange
  | command s => exact keeps_command exchange s
  | reset => exact keeps_command exchange _
  | clear => exact keeps_command exchange _
  | load => exact keeps_command exchange _
  | configure => exact (keeps_command exchange _).bind fun _ => keeps_writeControl exchange _
  | setNumber n => exact keeps_writeNumber exchange code n
  | number => exact keeps_readNumber exchange .dac
  | setVolts volts => exact (keeps_writeNumber exchange code _).bind fun _ => Action.keeps_pure _
  | volts => exact (keeps_readNumber exchange .dac).bind fun _ => Action.keeps_pure _
  | setClearCode n => exact keeps_writeNumber exchange clearCode n
  | clearCode => exact keeps_readNumber exchange .clearCode

end DacDriver

theorem AdcDriver.keeps_number {d : AdcDriver}
    (exchange : ∀ frame, Keeps I (d.spi.exchange g frame)) : Keeps (Link.Live I) (d.number g) :=
  (SpiDriver.keeps_send (exchange _)).bind fun _ => Action.keeps_pure _

/-- An operation with a grant keeps what the exchanges keep that it is made of. -/
theorem SpiDriver.Operation.keeps {spi : SpiDriver} {α : Type} {a : Action (Link τ) α}
    (operation : spi.Operation g a) (exchange : ∀ frame, Keeps I (spi.exchange g frame)) :
    Keeps (Link.Live I) a := by
  cases operation with
  | send _ frame => exact SpiDriver.keeps_send (exchange frame)
  | converter operation => exact DacDriver.Operation.keeps (fun frame _ => exchange frame) operation
  | sampledNumber d => exact AdcDriver.keeps_number exchange
  | sampledVolts d => exact (AdcDriver.keeps_number exchange).bind fun _ => Action.keeps_pure _

end Operations

/-! ## The operations of the player's driver -/

/-- The addresses that the driver of the player writes to while the player is halted: the settings other than
those that start and stop it, the selection in front of the samples, and the samples. -/
def WaveformDriver.Prepares (d : WaveformDriver) (addr : Addr) : Prop :=
  addr = d.doLoop.addr ∨ addr = d.width.addr ∨ addr = d.spacing.addr ∨ addr = d.ram.selection.addr ∨
    ∃ i < d.capacity, addr = d.ramOrigin + 4 * BitVec.ofNat 32 i

/-- All addresses that the driver of the player writes to. -/
def WaveformDriver.Writes (d : WaveformDriver) (addr : Addr) : Prop :=
  addr = d.run.addr ∨ addr = d.forceStop.addr ∨ d.Prepares addr

namespace WaveformDriver

variable {d : WaveformDriver}

section Prepared

variable (reads : ReadsKeep I) (clears : Keeps I (d.run.set 0))
  (writes : ∀ addr, d.Prepares addr → WritesKeep I addr)
include reads clears writes

theorem keeps_halt : Keeps I d.halt := by
  refine clears.bind fun _ => ?_
  refine (RegisterRef.keeps_set (writes _ (.inl rfl)) 0).bind fun _ => ?_
  exact (RegisterRef.keeps_reads reads _ 1).waitFor _ _

theorem keeps_prepare {samples : List Word} (fit : samples.length ≤ d.capacity) (spacing : Word)
    (loop : Bool) : Keeps I (d.prepare samples spacing loop) := by
  have selects : WritesKeep I d.ram.selection.addr := writes _ (.inr (.inr (.inr (.inl rfl))))
  refine (keeps_halt reads clears writes).bind fun _ => ?_
  refine (Arbiter.keeps_connect reads selects _).bind fun _ => ?_
  refine (Action.keeps_ofAccess (Transport.keeps_writeWords fun i inside => ?_)).bind fun _ => ?_
  · exact writes _ (.inr (.inr (.inr (.inr ⟨i, Nat.lt_of_lt_of_le inside fit, rfl⟩))))
  refine (RegisterRef.keeps_set (writes _ (.inr (.inl rfl))) _).bind fun _ => ?_
  refine (RegisterRef.keeps_set (writes _ (.inr (.inr (.inl rfl)))) _).bind fun _ => ?_
  refine (RegisterRef.keeps_set (writes _ (.inl rfl)) _).bind fun _ => ?_
  exact (Arbiter.keeps_connect reads selects _).bind fun _ => Action.keeps_pure _

end Prepared

variable (reads : ReadsKeep I) (writes : ∀ addr, d.Writes addr → WritesKeep I addr)
include reads writes

theorem keeps_start (g : Grant) (samples : List Word) (spacing : Word) (loop : Bool) :
    Keeps (Link.Live I) (d.start g samples spacing loop) := by
  unfold start
  dsimp only
  split
  · exact Action.keeps_throw_bind _ _
  split
  · exact Action.keeps_throw_bind _ _
  · next fit =>
    apply Action.Keeps.locked
    have run : WritesKeep I d.run.addr := writes _ (.inl rfl)
    have prepares : Keeps I (d.prepare samples spacing loop) :=
      keeps_prepare reads (RegisterRef.keeps_set run 0) (fun addr prepares => writes addr (.inr (.inr prepares)))
        (Nat.le_of_not_lt fit) spacing loop
    exact (Arbiter.keeps_check reads _ g _).bind fun _ =>
      prepares.bind fun _ => RegisterRef.keeps_set run 1

theorem keeps_stop : Keeps (Link.Live I) d.stop :=
  (keeps_halt reads (RegisterRef.keeps_set (writes _ (.inl rfl)) 0) fun addr prepares =>
    writes addr (.inr (.inr prepares))).locked

omit reads in
theorem keeps_abort : Keeps (Link.Live I) d.abort := by
  apply Action.Keeps.locked
  refine (RegisterRef.keeps_set (writes _ (.inr (.inl rfl))) 1).bind fun _ => ?_
  refine (RegisterRef.keeps_set (writes _ (.inl rfl)) 0).bind fun _ => ?_
  refine (RegisterRef.keeps_set (writes _ (.inr (.inr (.inl rfl)))) 0).bind fun _ => ?_
  exact RegisterRef.keeps_set (writes _ (.inr (.inl rfl))) 0

end WaveformDriver

end InstrumentBus
