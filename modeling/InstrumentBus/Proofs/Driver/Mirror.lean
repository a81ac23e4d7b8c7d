import InstrumentBus.Driver.ControlLoop
import InstrumentBus.Driver.Spi
import InstrumentBus.Proofs.Driver.Action

/-!
# Drivers on an image of a transport

A transport may carry more than it needs to answer: a record of what was done, say. Where word accesses do
to the transport what they do to an image of it that leaves the rest out, so does everything that a driver
makes of word accesses, and the results are the same (`Transport.Mirrors.exchange`, `Transport.Mirrors.call`).
-/

namespace InstrumentBus

namespace Action

variable {σ α β : Type}

/-- What `a` does to a state, `b` does to its image under `f`. -/
def Mirrors {ρ : Type} (f : σ → ρ) (a : Action σ α) (b : Action ρ α) : Prop :=
  ∀ s, b.perform (f s) = (a.perform s).map id f

variable {ρ : Type} {f : σ → ρ}

theorem mirrors_ofExcept (r : Except DriverError α) : Mirrors f (ofExcept r) (ofExcept r) :=
  fun _ => rfl

theorem mirrors_ofAccess {g : σ → Except Fault α × σ} {h : ρ → Except Fault α × ρ}
    (same : ∀ s, h (f s) = (g s).map id f) : Mirrors f (ofAccess g) (ofAccess h) := by
  intro s
  show (h (f s)).map (Except.mapError DriverError.fault) id =
    ((g s).map (Except.mapError DriverError.fault) id).map id f
  rw [same]
  rfl

theorem Mirrors.bind {a : Action σ α} {b : Action ρ α} (first : Mirrors f a b)
    {next : α → Action σ β} {next' : α → Action ρ β} (rest : ∀ v, Mirrors f (next v) (next' v)) :
    Mirrors f (a >>= next) (b >>= next') := by
  intro s
  rcases outcome : a.perform s with ⟨e | v, after⟩
  · have image : b.perform (f s) = (.error e, f after) := by
      rw [first, outcome]
      rfl
    rw [perform_bind_of_error image, perform_bind_of_error outcome]
    rfl
  · have image : b.perform (f s) = (.ok v, f after) := by
      rw [first, outcome]
      rfl
    rw [perform_bind_of_ok image, perform_bind_of_ok outcome]
    exact rest v after

theorem Mirrors.pollUntil {condition : Action σ Bool} {condition' : Action ρ Bool}
    (polls : Mirrors f condition condition') (timeout : DriverError) (limit : Nat) :
    Mirrors f (pollUntil timeout condition limit) (pollUntil timeout condition' limit) := by
  induction limit with
  | zero => exact fun _ => rfl
  | succ limit ih =>
    refine polls.bind fun v => ?_
    cases v with
    | false => exact ih
    | true => exact fun _ => rfl

end Action

/-! ## Links -/

/-- The link to the image of a transport. -/
def Link.map {τ σ : Type} (f : τ → σ) (l : Link τ) : Link σ :=
  { health := l.health, bus := f l.bus }

/-- The lock of a link does not see what is left out of the image. -/
theorem Action.Mirrors.locked {τ σ α : Type} {f : τ → σ} {a : Action τ α} {b : Action σ α}
    (mirrors : Action.Mirrors f a b) : Action.Mirrors (Link.map f) (Link.locked a) (Link.locked b) := by
  rintro ⟨health, t⟩
  cases health with
  | live =>
    show (b.perform (f t)).map id Link.connect = ((a.perform t).map id Link.connect).map id (Link.map f)
    rw [mirrors t]
    rfl
  | poisoned => rfl
  | dropped => rfl

/-! ## Drivers -/

variable {τ σ : Type} [Transport τ] [Transport σ] {f : τ → σ}

/-- What word accesses do to a transport, they do to its image under `f`. -/
structure Transport.Mirrors (f : τ → σ) : Prop where
  readWord : ∀ t addr, Transport.readWord (f t) addr = (Transport.readWord t addr).map id f
  writeWord : ∀ t addr w, Transport.writeWord (f t) addr w = (Transport.writeWord t addr w).map id f

namespace Transport.Mirrors

theorem get (mirrors : Transport.Mirrors f) (ref : RegisterRef) : Action.Mirrors f ref.get ref.get :=
  (Action.mirrors_ofAccess fun t => mirrors.readWord t ref.addr).bind fun _ _ => rfl

theorem set (mirrors : Transport.Mirrors f) (ref : RegisterRef) (w : Word) :
    Action.Mirrors f (ref.set w) (ref.set w) :=
  (Action.mirrors_ofExcept ref.checkWritable).bind fun _ =>
    Action.mirrors_ofAccess fun t => mirrors.writeWord t ref.addr _

theorem check (mirrors : Transport.Mirrors f) (arbiter : Arbiter) (g : Grant) (requester : Nat) :
    Action.Mirrors f (arbiter.check g requester) (arbiter.check g requester) := by
  refine ((mirrors.get arbiter.selection).bind fun _ _ => rfl).bind fun owner => ?_
  split
  · exact fun _ => rfl
  · exact fun _ => rfl

theorem wait (mirrors : Transport.Mirrors f) (name : String) (limit : Nat) (ref : RegisterRef)
    (w : Word) :
    Action.Mirrors f (waitFor name limit (ref.reads w)) (waitFor name limit (ref.reads w)) :=
  ((mirrors.get ref).bind fun _ _ => rfl).pollUntil _ _

/-- An exchange comes out the same on an image of the transport. -/
theorem exchange (mirrors : Transport.Mirrors f) (d : SpiDriver) (g : Grant) (w : Word) :
    Action.Mirrors f (d.exchange g w) (d.exchange g w) := by
  refine (mirrors.check d.arbiter g supervisorIndex).bind fun _ => ?_
  refine (mirrors.set d.arm 0).bind fun _ => ?_
  refine (mirrors.wait "ready_to_arm" d.pollLimit d.readyToArm 1).bind fun _ => ?_
  refine (mirrors.set d.toSlave w).bind fun _ => ?_
  refine (mirrors.set d.arm 1).bind fun _ => ?_
  refine (mirrors.wait "finished" d.pollLimit d.finished 1).bind fun _ => ?_
  refine (mirrors.get d.fromSlave).bind fun _ => ?_
  exact (mirrors.set d.arm 0).bind fun _ _ => rfl

/-- A call of the command block comes out the same on an image of the transport. -/
theorem call (mirrors : Transport.Mirrors f) (d : LoopDriver) (opcode : Word) (v : ControlLoop.Value) :
    Action.Mirrors (Link.map f) (d.call opcode v) (d.call opcode v) := by
  refine Action.Mirrors.locked ?_
  refine (mirrors.set d.inHigh v.high).bind fun _ => (mirrors.set d.inLow v.low).bind fun _ => ?_
  refine (mirrors.set d.opcode opcode).bind fun _ => (mirrors.set d.startBit 1).bind fun _ => ?_
  refine (mirrors.wait "finish_cmd" d.pollLimit d.finishBit 1).bind fun _ => ?_
  refine (mirrors.get d.outHigh).bind fun _ => (mirrors.get d.outLow).bind fun _ => ?_
  refine (mirrors.set d.startBit 0).bind fun _ => ?_
  exact (mirrors.wait "finish_cmd release" d.pollLimit d.finishBit 0).bind fun _ _ => rfl

theorem setGains (mirrors : Transport.Mirrors f) (d : LoopDriver) (p i : ControlLoop.Gain) :
    Action.Mirrors (Link.map f) (d.setGains p i) (d.setGains p i) :=
  (mirrors.call d _ _).bind fun _ => (mirrors.call d _ _).bind fun _ _ => rfl

theorem gains (mirrors : Transport.Mirrors f) (d : LoopDriver) :
    Action.Mirrors (Link.map f) d.gains d.gains :=
  (mirrors.call d _ _).bind fun _ => (mirrors.call d _ _).bind fun _ _ => rfl

end Transport.Mirrors

end InstrumentBus
