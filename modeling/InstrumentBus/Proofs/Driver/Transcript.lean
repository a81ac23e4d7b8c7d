import InstrumentBus.Driver.Arbiter
import InstrumentBus.Proofs.Driver.Register
import InstrumentBus.Transport.Probe

/-!
# Transcripts of actions

A probe that lets every access pass records what an action does without a part in it.
`Probe.Transcribes a b Q E` says both: watched by such a probe, `a` ends as `b` does on the bare transport, and
the accesses that it makes are, in turn, as `Q` says for its result or `E` for its error. Like a driver's
operation itself, these are put together from the accesses one by one (`Transcribes.bind`).
-/

namespace InstrumentBus.Probe

variable {τ α β : Type}

/-- A probe that only watches: no address fails and no byte is held. -/
structure Watches (p : Probe τ) : Prop where
  failing : p.failing = []
  stuck : p.stuck = none

theorem watches_attach (t : τ) : (attach t).Watches :=
  ⟨rfl, rfl⟩

/-- Watched by a probe, `a` ends as `b` does without it, and the accesses that it makes are, in turn, as `Q`
says for its result or `E` for its error. -/
def Transcribes (a : Action (Probe τ) α) (b : Action τ α) (Q : α → List Event → Prop)
    (E : DriverError → List Event → Prop) : Prop :=
  ∀ p : Probe τ, p.Watches → ∃ after events, after.Watches ∧ after.record = p.record ++ events ∧
    ((∃ v, a.perform p = (.ok v, after) ∧ b.perform p.bus = (.ok v, after.bus) ∧ Q v events) ∨
      ∃ e, a.perform p = (.error e, after) ∧ b.perform p.bus = (.error e, after.bus) ∧ E e events)

variable {a : Action (Probe τ) α} {b : Action τ α} {next : α → Action (Probe τ) β} {next' : α → Action τ β}
  {Q Q' : α → List Event → Prop} {E E' : DriverError → List Event → Prop} {R : β → List Event → Prop}

/-! ## Actions in general -/

theorem Transcribes.mono (transcribes : Transcribes a b Q E) (ok : ∀ v events, Q v events → Q' v events)
    (error : ∀ e events, E e events → E' e events) : Transcribes a b Q' E' := by
  intro p watches
  obtain ⟨after, events, still, record, ⟨v, ends, bare, made⟩ | ⟨e, ends, bare, made⟩⟩ := transcribes p watches
  · exact ⟨after, events, still, record, .inl ⟨v, ends, bare, ok v events made⟩⟩
  · exact ⟨after, events, still, record, .inr ⟨e, ends, bare, error e events made⟩⟩

theorem transcribes_pure {v : α} (none : Q v []) : Transcribes (τ := τ) (pure v) (pure v) Q E :=
  fun p watches => ⟨p, [], watches, (List.append_nil _).symm, .inl ⟨v, rfl, rfl, none⟩⟩

theorem transcribes_throw {e : DriverError} (none : E e []) : Transcribes (τ := τ) (throw e) (throw e) Q E :=
  fun p watches => ⟨p, [], watches, (List.append_nil _).symm, .inr ⟨e, rfl, rfl, none⟩⟩

theorem transcribes_ofExcept {r : Except DriverError α} (ok : ∀ v, r = .ok v → Q v [])
    (error : ∀ e, r = .error e → E e []) :
    Transcribes (τ := τ) (Action.ofExcept r) (Action.ofExcept r) Q E := by
  cases r with
  | ok v => exact transcribes_pure (ok v rfl)
  | error e => exact transcribes_throw (error e rfl)

/-- Where the first action fails, its accesses are all; else those of the second come after them. -/
theorem Transcribes.bind (first : Transcribes a b Q E)
    (rest : ∀ v earlier, Q v earlier → Transcribes (next v) (next' v)
      (fun w later => R w (earlier ++ later)) fun e later => E e (earlier ++ later)) :
    Transcribes (a >>= next) (b >>= next') R E := by
  intro p watches
  obtain ⟨middle, earlier, still, record, ⟨v, ends, bare, made⟩ | ⟨e, ends, bare, made⟩⟩ := first p watches
  · obtain ⟨after, later, quiet, whole, outcome⟩ := rest v earlier made middle still
    refine ⟨after, earlier ++ later, quiet, by rw [whole, record, List.append_assoc], ?_⟩
    rw [Action.perform_bind_of_ok ends, Action.perform_bind_of_ok bare]
    exact outcome
  · exact ⟨middle, earlier, still, record, .inr ⟨e, Action.perform_bind_of_error ends _,
      Action.perform_bind_of_error bare _, made⟩⟩

/-! ## Accesses -/

/-- An access ends in a fault. -/
def Faults (event : Except Fault α → Event) (e : DriverError) (events : List Event) : Prop :=
  ∃ fault, e = .fault fault ∧ events = [event (.error fault)]

theorem transcribes_access (addr : Addr) {event : Except Fault α → Event} {reach : τ → Except Fault α × τ}
    {access : Probe τ → Except Fault α × Probe τ}
    (observed : ∀ p : Probe τ, p.Watches → access p = p.observe addr event reach) :
    Transcribes (Action.ofAccess access) (Action.ofAccess reach) (fun v events => events = [event (.ok v)])
      (Faults event) := by
  intro p watches
  rcases outcome : reach p.bus with ⟨r, bus⟩
  have passes : access p = (r, { p with bus, events := event r :: p.events }) := by
    rw [observed p watches, observe, watches.failing, outcome]
    rfl
  refine ⟨{ p with bus, events := event r :: p.events }, [event r], ⟨watches.failing, watches.stuck⟩,
    List.reverse_cons, ?_⟩
  cases r with
  | ok v =>
    exact .inl ⟨v, Action.perform_ofAccess_of_ok passes, Action.perform_ofAccess_of_ok outcome, rfl⟩
  | error e =>
    exact .inr ⟨_, Action.perform_ofAccess_of_error passes, Action.perform_ofAccess_of_error outcome, e, rfl,
      rfl⟩

variable [Transport τ]

theorem transcribes_readWord (addr : Addr) :
    Transcribes (τ := τ) (Action.ofAccess fun p => Transport.readWord p addr)
      (Action.ofAccess fun t => Transport.readWord t addr) (fun w events => events = [.readWord addr (.ok w)])
      (Faults (.readWord addr)) :=
  transcribes_access addr fun _ _ => rfl

theorem transcribes_writeWord (addr : Addr) (w : Word) :
    Transcribes (τ := τ) (Action.ofAccess fun p => Transport.writeWord p addr w)
      (Action.ofAccess fun t => Transport.writeWord t addr w)
      (fun _ events => events = [.writeWord addr w (.ok ())]) (Faults (.writeWord addr w)) :=
  transcribes_access addr fun _ _ => rfl

theorem transcribes_readByte (addr : Addr) :
    Transcribes (τ := τ) (Action.ofAccess fun p => Transport.readByte p addr)
      (Action.ofAccess fun t => Transport.readByte t addr) (fun v events => events = [.readByte addr (.ok v)])
      (Faults (.readByte addr)) :=
  transcribes_access addr fun _ _ => rfl

theorem transcribes_writeByte (addr : Addr) (v : Byte) :
    Transcribes (τ := τ) (Action.ofAccess fun p => Transport.writeByte p addr v)
      (Action.ofAccess fun t => Transport.writeByte t addr v)
      (fun _ events => events = [.writeByte addr v (.ok ())]) (Faults (.writeByte addr v)) := by
  refine transcribes_access addr fun p watches => ?_
  show p.observe addr (.writeByte addr (if p.stuck = some addr then 0 else v)) _ = _
  rw [watches.stuck]
  rfl

/-! ## Registers -/

/-- A read of a register is one access. -/
theorem transcribes_get (ref : RegisterRef) :
    Transcribes (τ := τ) ref.get ref.get
      (fun v events => ∃ w, v = w &&& widthMask ref.width ∧ events = [.readWord ref.addr (.ok w)])
      (Faults (.readWord ref.addr)) := by
  refine (transcribes_readWord ref.addr).bind fun w _ made => transcribes_pure ?_
  subst made
  exact ⟨w, rfl, rfl⟩

/-- A write of a register is refused without any access, or it is one access. -/
theorem transcribes_set (ref : RegisterRef) (w : Word) :
    Transcribes (τ := τ) (ref.set w) (ref.set w)
      (fun _ events => events = [.writeWord ref.addr (w &&& widthMask ref.width) (.ok ())])
      fun e events => (ref.checkWritable = .error e ∧ events = []) ∨
        Faults (.writeWord ref.addr (w &&& widthMask ref.width)) e events := by
  refine (transcribes_ofExcept (Q := fun _ events => events = []) (fun _ _ => rfl)
    fun e refused => .inl ⟨refused, rfl⟩).bind fun _ _ none => ?_
  subst none
  exact (transcribes_writeWord ref.addr _).mono (fun _ _ made => made) fun _ _ failed => .inr failed

end InstrumentBus.Probe
