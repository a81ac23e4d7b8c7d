import InstrumentBus.Proofs.Ad5791.Frame
import InstrumentBus.Proofs.Waveform.Player

/-!
# What the player does on ports that answer anything

The player is a master on two ports, and whoever holds the settings may write them at any time. Here nothing is
assumed of either: a history is any sequence of bus transactions and of steps, and each step finds ports of
its own that answer as they like. The transactions of a step are recorded at its ports (`Tapped`), and
`issues_tick` lists what they can be. So after every history the flags tell the state, and the next step keeps to
the player's part (`Orderly`, `ports_are_used_in_order`).
-/

namespace InstrumentBus

/-! ## Ports under observation -/

/-- A transaction and the answer to it. -/
structure Exchange where
  request : Request
  answer : Response
deriving DecidableEq, Repr

/-- A port whose transactions are recorded. -/
structure Tapped (σ : Type) where
  port : σ
  /-- The transactions so far, in the order in which they were made. -/
  traffic : List Exchange

namespace Tapped

variable {σ : Type}

/-- A port whose transactions are recorded from now on. -/
def attach (port : σ) : Tapped σ :=
  { port, traffic := [] }

variable [Target σ]

instance : Target (Tapped σ) where
  transact t req :=
    let (answer, port) := Target.transact t.port req
    (answer, { port, traffic := t.traffic ++ [⟨req, answer⟩] })

/-- A port is the same device with a tap and without. -/
theorem transact_port (t : Tapped σ) (req : Request) :
    Target.transact t.port req = ((Target.transact t req).1, (Target.transact t req).2.port) :=
  rfl

end Tapped

namespace Waveform.Player

open Input (after)

variable {p : Player} {ρ δ : Type} [Target ρ] [Target δ]

/-! ## One step -/

theorem playPhase_tapped (p : Player) (ram : Tapped ρ) (dac : Tapped δ) :
    p.playPhase ram.port dac.port =
      ((p.playPhase ram dac).1, (p.playPhase ram dac).2.1.port, (p.playPhase ram dac).2.2.port) := by
  unfold playPhase
  cases p.phase with
  | load => rfl
  | transfer =>
    simp only [Tapped.transact_port]
    split <;> rfl
  | awaitFrame =>
    simp only [Tapped.transact_port]
    split <;> rfl
  | wait elapsed =>
    dsimp only
    split <;> rfl

/-- Nothing changes for the player when its ports are observed, nor for the ports. -/
theorem tick_tapped (p : Player) (ram : Tapped ρ) (dac : Tapped δ) :
    p.tick ram.port dac.port =
      ((p.tick ram dac).1, (p.tick ram dac).2.1.port, (p.tick ram dac).2.2.port) := by
  rcases tick_cases p ram dac with
    ⟨ready, may, ticked⟩ | ⟨running, may, ticked⟩ | ⟨running, may, ticked⟩ | ⟨idle, may, ticked⟩
  · rw [ticked, tick_of_starts ready may]
  · rw [ticked, tick_of_plays running may, playPhase_tapped]
  · rw [ticked, tick_of_halts running may]
    rfl
  · rw [ticked, tick_of_rests idle may]

/-- What a step of the player does to its ports, with the answers that it gets. -/
inductive Issues (p : Player) : List Exchange → List Exchange → Prop where
  | nothing : Issues p [] []
  /-- The player leaves the running state before the end. -/
  | halt (done : Response) (running : p.state = .running) : Issues p [] [⟨lowerArm, done⟩]
  | load (sample done : Response) (running : p.state = .running) :
    Issues p [⟨readSample (p.registers.value cursor), sample⟩] [⟨loadFrame sample.data, done⟩]
  /-- The controller is not ready. -/
  | ask (ready : Response) (running : p.state = .running) : Issues p [] [⟨askReady, ready⟩]
  | arm (ready done : Response) (running : p.state = .running) (asserted : ready.data = 1) :
    Issues p [] [⟨askReady, ready⟩, ⟨raiseArm, done⟩]
  /-- The frame is not complete. -/
  | poll (complete : Response) (running : p.state = .running) : Issues p [] [⟨askFinished, complete⟩]
  | release (complete done : Response) (running : p.state = .running) :
    Issues p [] [⟨askFinished, complete⟩, ⟨lowerArm, done⟩]

theorem issues_playPhase (running : p.state = .running) (ram : ρ) (dac : δ) :
    Issues p (p.playPhase (Tapped.attach ram) (Tapped.attach dac)).2.1.traffic
      (p.playPhase (Tapped.attach ram) (Tapped.attach dac)).2.2.traffic := by
  unfold playPhase
  cases p.phase with
  | load => exact .load _ _ running
  | transfer =>
    dsimp only
    split
    · next asserted => exact .arm _ _ running asserted
    · exact .ask _ running
  | awaitFrame =>
    dsimp only
    split
    · exact .release _ _ running
    · exact .poll _ running
  | wait elapsed =>
    dsimp only
    split <;> exact .nothing

/-- Whatever the ports answer, a step does no more to them than this. -/
theorem issues_tick (p : Player) (ram : ρ) (dac : δ) :
    Issues p (p.tick (Tapped.attach ram) (Tapped.attach dac)).2.1.traffic
      (p.tick (Tapped.attach ram) (Tapped.attach dac)).2.2.traffic := by
  rcases tick_cases p (Tapped.attach ram) (Tapped.attach dac) with
    ⟨-, -, ticked⟩ | ⟨running, -, ticked⟩ | ⟨running, -, ticked⟩ | ⟨-, -, ticked⟩
  · rw [ticked]
    exact .nothing
  · rw [ticked]
    exact issues_playPhase running ram dac
  · rw [ticked]
    exact .halt _ running
  · rw [ticked]
    exact .nothing

/-! ## Changes of state -/

/-- The next step is the last of the last sample, and the player does not start again. -/
structure Expires (p : Player) : Prop where
  running : p.state = .running
  may : p.MayRun
  waited : ∃ elapsed, p.phase = .wait elapsed ∧ (p.registers.value spacing).toNat ≤ elapsed
  last : ¬p.registers.value cursor + 1 < p.registers.value width
  single : p.registers.value doLoop ≠ 1

theorem state_advance (p : Player) : p.advance.state =
    if p.registers.value cursor + 1 < p.registers.value width ∨ p.registers.value doLoop = 1 then p.state
    else .finished := by
  unfold advance
  dsimp only
  split
  · next more => rw [if_pos (.inl more)]; rfl
  · next last =>
    split
    · next loops => rw [if_pos (.inr loops)]; rfl
    · next single => rw [if_neg (not_or.2 ⟨last, single⟩)]; rfl

/-- A phase leaves the state as it is, unless it is the last of all. -/
theorem state_playPhase (p : Player) (ram : ρ) (dac : δ) :
    (p.playPhase ram dac).1.state = p.state ∨
      (∃ elapsed, p.phase = .wait elapsed ∧ (p.registers.value spacing).toNat ≤ elapsed) ∧
        (p.playPhase ram dac).1 = p.advance := by
  unfold playPhase
  cases phase : p.phase with
  | load => exact .inl rfl
  | transfer =>
    dsimp only
    split <;> exact .inl rfl
  | awaitFrame =>
    dsimp only
    split <;> exact .inl rfl
  | wait elapsed =>
    dsimp only
    split
    · exact .inl rfl
    · next over_ => exact .inr ⟨⟨elapsed, rfl, Nat.le_of_not_lt over_⟩, rfl⟩

theorem state_settle (p : Player) : p.settle.state = p.state ∨ p.settle.state = .ready := by
  unfold settle
  split
  · exact .inr rfl
  · exact .inl rfl

theorem state_halt (p : Player) : p.halt.state = .ready :=
  rfl

/-- A player that expires plays its last phase. -/
theorem Expires.tick (expires : p.Expires) (ram : ρ) (dac : δ) : p.tick ram dac = (p.advance, ram, dac) := by
  obtain ⟨elapsed, phase, gone⟩ := expires.waited
  rw [tick_of_plays expires.running expires.may, playPhase, phase]
  exact if_neg (Nat.not_lt.2 gone)

theorem Expires.state_advance (expires : p.Expires) : p.advance.state = .finished := by
  rw [Player.state_advance, if_neg (not_or.2 ⟨expires.last, expires.single⟩)]

/-- A step takes the player past its last sample if it expires there, and in no other way. -/
theorem finished_tick_iff (p : Player) (ram : ρ) (dac : δ) (fresh : p.state ≠ .finished) :
    (p.tick ram dac).1.state = .finished ↔ p.Expires := by
  constructor
  · intro done
    rcases tick_cases p ram dac with
      ⟨-, -, ticked⟩ | ⟨running, may, ticked⟩ | ⟨-, -, ticked⟩ | ⟨-, -, ticked⟩
    · rw [ticked] at done
      cases done
    · rw [ticked] at done
      rcases state_playPhase p ram dac with same | ⟨waited, played⟩
      · exact absurd (same.symm.trans done) fresh
      · rw [played, state_advance] at done
        split at done
        · exact absurd done fresh
        · next last =>
          exact ⟨running, may, waited, fun more => last (.inl more), fun loops => last (.inr loops)⟩
    · rw [ticked, state_halt] at done
      cases done
    · rw [ticked] at done
      rcases state_settle p with same | ready
      · exact absurd (same.symm.trans done) fresh
      · rw [ready] at done
        cases done
  · intro expires
    rw [expires.tick]
    exact expires.state_advance

/-- The player runs only if it ran before or was ready. -/
theorem running_tick (p : Player) (ram : ρ) (dac : δ) (runs : (p.tick ram dac).1.state = .running) :
    p.state = .running ∨ p.state = .ready := by
  rcases tick_cases p ram dac with
    ⟨ready, -, -⟩ | ⟨running, -, -⟩ | ⟨running, -, -⟩ | ⟨-, -, ticked⟩
  · exact .inr ready
  · exact .inl running
  · exact .inl running
  · rw [ticked] at runs
    rcases state_settle p with same | ready
    · exact .inl (same.symm.trans runs)
    · rw [ready] at runs
      cases runs

/-- A player that expires was running a step earlier. -/
theorem Expires.ran {ram : ρ} {dac : δ} (expires : (p.tick ram dac).1.Expires) :
    p.state = .running := by
  rcases tick_cases p ram dac with
    ⟨-, -, ticked⟩ | ⟨running, -, -⟩ | ⟨running, -, -⟩ | ⟨idle, -, ticked⟩
  · obtain ⟨elapsed, phase, -⟩ := expires.waited
    rw [ticked] at phase
    cases phase
  · exact running
  · exact running
  · have running := expires.running
    rw [ticked] at running
    rcases state_settle p with same | ready
    · exact absurd (same.symm.trans running) idle
    · rw [ready] at running
      cases running

/-! ## Histories -/

/-- The steps of a player find ports in any state. -/
instance : Moving (ρ × δ) Player where
  move p ports := (p.tick ports.1 ports.2).1

/-- What shows of one input: the player before it and after it, and the traffic on its two ports. -/
structure Observed where
  before : Player
  after : Player
  onRam : List Exchange
  onDac : List Exchange

def observe (p : Player) : Input (ρ × δ) → Observed
  | .bus req => { before := p, after := (p.transact req).2, onRam := [], onDac := [] }
  | .move (ram, dac) =>
    let (after, ram, dac) := p.tick (Tapped.attach ram) (Tapped.attach dac)
    { before := p, after, onRam := ram.traffic, onDac := dac.traffic }

/-- The player that is observed is the player. -/
theorem after_observe (p : Player) (i : Input (ρ × δ)) : (p.observe i).after = Input.step p i := by
  cases i with
  | bus req => rfl
  | move ports => exact congrArg Prod.fst (tick_tapped p (Tapped.attach ports.1) (Tapped.attach ports.2)).symm

/-- Whatever happens to a player, its flags tell its state. -/
theorem Sound.along (sound : p.Sound) (inputs : List (Input (ρ × δ))) : (after p inputs).Sound :=
  Input.after_keeps (fun _ req sound => sound.transact req) (fun _ ports sound => sound.tick ports.1 ports.2)
    sound inputs

/-- The first flag tells whether the player rests. -/
theorem Sound.finishedOrReady_iff (sound : p.Sound) :
    p.registers.value finishedOrReady = 1 ↔ p.state ≠ .running := by
  rw [sound.atRest]
  by_cases running : p.state = .running <;> simp [running]

/-- The second flag tells whether the player is past its last sample. -/
theorem Sound.finished_iff (sound : p.Sound) : p.registers.value finished = 1 ↔ p.state = .finished := by
  rw [sound.atEnd]
  by_cases done : p.state = .finished <;> simp [done]

/-- The requests that a player may make of the controller. -/
inductive Permitted : Request → Prop where
  | askReady : Permitted askReady
  | askFinished : Permitted askFinished
  | lowerArm : Permitted lowerArm
  | raiseArm : Permitted raiseArm
  | frame (x : Word) (small : x.toNat < 2 ^ 20) :
    Permitted (.writeWord (Layout.offset Spi.Controller.toSlave) (0x100000#32 ||| x))

/-- What every step of a player keeps to, whatever its ports answer. -/
structure Observed.Orderly (o : Observed) : Prop where
  silent : o.before.state ≠ .running → o.onRam = [] ∧ o.onDac = []
  samples : ∀ x ∈ o.onRam, ∃ addr, x.request = .read addr ∧
    addr.toNat = 4 * (o.before.registers.value cursor).toNat ∧
      (o.before.registers.value cursor).toNat ≤ 0xFFFF
  frames : ∀ x ∈ o.onDac, Permitted x.request
  /-- Before `arm` is raised, the controller has said in the same step that it is ready. -/
  armed : ∀ earlier x later, o.onDac = earlier ++ x :: later → x.request = raiseArm →
    ∃ y ∈ earlier, y.request = askReady ∧ y.answer.data = 1
  finishes : o.before.state ≠ .finished → o.after.state = .finished →
    o.before.registers.value doLoop = 0 ∧
      (o.before.registers.value width).toNat ≤ (o.before.registers.value cursor).toNat + 1
  starts : o.before.state ≠ .running → o.after.state = .running → o.before.state = .ready

/-- The frame of a sample writes twenty bits to the converter's output register. -/
theorem permitted_loadFrame (sample : Word) : Permitted (loadFrame sample) := by
  have small : (sample &&& Ad5791.dataMask).toNat < 2 ^ 20 := by
    rw [BitVec.toNat_and]
    exact Nat.and_lt_two_pow _ (by decide)
  exact .frame _ small

theorem Issues.permitted {onRam onDac : List Exchange} (issues : p.Issues onRam onDac) :
    ∀ x ∈ onDac, Permitted x.request := by
  cases issues <;>
    simp only [List.mem_cons, List.not_mem_nil, or_false, forall_eq_or_imp, forall_eq, false_implies,
      implies_true]
  case halt => exact .lowerArm
  case load => exact permitted_loadFrame _
  case ask => exact .askReady
  case arm => exact ⟨.askReady, .raiseArm⟩
  case poll => exact .askFinished
  case release => exact ⟨.askFinished, .lowerArm⟩

theorem Issues.silent {onRam onDac : List Exchange} (issues : p.Issues onRam onDac)
    (idle : p.state ≠ .running) : onRam = [] ∧ onDac = [] := by
  cases issues <;> first | exact ⟨rfl, rfl⟩ | contradiction

theorem Issues.samples {onRam onDac : List Exchange} (issues : p.Issues onRam onDac) :
    ∀ x ∈ onRam, x.request = readSample (p.registers.value cursor) := by
  cases issues <;> simp only [List.mem_singleton, List.not_mem_nil, forall_eq, false_implies, implies_true]

theorem others_ne_raiseArm : askReady ≠ raiseArm ∧ askFinished ≠ raiseArm ∧ lowerArm ≠ raiseArm := by
  decide

theorem loadFrame_ne_raiseArm (sample : Word) : loadFrame sample ≠ raiseArm := by
  intro same
  have places : Layout.offset Spi.Controller.toSlave = Layout.offset Spi.Controller.arm :=
    congrArg Request.addr same
  exact absurd places (by decide)

/-- A step raises `arm` second, after the controller has said that it is ready. -/
theorem Issues.of_raises {onRam onDac : List Exchange} (issues : p.Issues onRam onDac) {x : Exchange}
    (made : x ∈ onDac) (raises : x.request = raiseArm) :
    ∃ ready done, onDac = [⟨askReady, ready⟩, ⟨raiseArm, done⟩] ∧ ready.data = 1 := by
  cases issues with
  | nothing => cases made
  | halt done running =>
    rw [List.mem_singleton.1 made] at raises
    exact absurd raises others_ne_raiseArm.2.2
  | load sample done running =>
    rw [List.mem_singleton.1 made] at raises
    exact absurd raises (loadFrame_ne_raiseArm sample.data)
  | ask ready running =>
    rw [List.mem_singleton.1 made] at raises
    exact absurd raises others_ne_raiseArm.1
  | arm ready done running asserted => exact ⟨ready, done, rfl, asserted⟩
  | poll complete running =>
    rw [List.mem_singleton.1 made] at raises
    exact absurd raises others_ne_raiseArm.2.1
  | release complete done running =>
    rcases List.mem_pair.1 made with rfl | rfl
    · exact absurd raises others_ne_raiseArm.2.1
    · exact absurd raises others_ne_raiseArm.2.2

theorem Issues.armed {onRam onDac : List Exchange} (issues : p.Issues onRam onDac)
    {earlier later : List Exchange} {x : Exchange} (split : onDac = earlier ++ x :: later)
    (raises : x.request = raiseArm) : ∃ y ∈ earlier, y.request = askReady ∧ y.answer.data = 1 := by
  have made : x ∈ onDac := split ▸ List.mem_append_right earlier List.mem_cons_self
  obtain ⟨ready, done, exchanges, asserted⟩ := issues.of_raises made raises
  rw [exchanges] at split
  cases earlier with
  | nil =>
    have first : ⟨askReady, ready⟩ = x := (List.cons.inj split).1
    rw [← first] at raises
    exact absurd raises others_ne_raiseArm.1
  | cons y rest =>
    have first : ⟨askReady, ready⟩ = y := (List.cons.inj split).1
    exact ⟨y, List.mem_cons_self, first ▸ rfl, first ▸ asserted⟩

/-- The address of a sample does not wrap. -/
theorem Sound.toNat_sample_addr (sound : p.Sound) :
    (p.registers.value cursor * 4).toNat = 4 * (p.registers.value cursor).toNat ∧
      (p.registers.value cursor).toNat ≤ 0xFFFF := by
  have small : (p.registers.value cursor).toNat < 2 ^ 16 := sound.fits.toNat_value_lt cursor_field
  have four : (4 : Word).toNat = 4 := rfl
  constructor
  · rw [BitVec.toNat_mul, four]
    omega
  · omega

/-- A player that expires is past its width and was not told to loop. -/
theorem Sound.past_width (sound : p.Sound) (expires : p.Expires) :
    p.registers.value doLoop = 0 ∧
      (p.registers.value width).toNat ≤ (p.registers.value cursor).toNat + 1 := by
  have small : (p.registers.value cursor).toNat < 2 ^ 16 := sound.fits.toNat_value_lt cursor_field
  have bit : (p.registers.value doLoop).toNat < 2 ^ 1 :=
    sound.fits.toNat_value_lt (f := ⟨"do_loop", 1, .readWrite⟩) rfl
  have one : (1 : Word).toNat = 1 := rfl
  constructor
  · have single : (p.registers.value doLoop).toNat ≠ (1 : Word).toNat :=
      fun loops => expires.single (BitVec.eq_of_toNat_eq loops)
    apply BitVec.eq_of_toNat_eq
    have zero : (0 : Word).toNat = 0 := rfl
    omega
  · have last := expires.last
    rw [BitVec.lt_def, BitVec.toNat_add, one] at last
    omega

theorem Sound.orderly_observe (sound : p.Sound) (i : Input (ρ × δ)) : (p.observe i).Orderly := by
  cases i with
  | bus req =>
    exact {
      silent := fun _ => ⟨rfl, rfl⟩
      samples := fun x made => absurd made List.not_mem_nil
      frames := fun x made => absurd made List.not_mem_nil
      armed := fun earlier x later split _ => absurd split (by simp [observe])
      finishes := fun fresh done => absurd done fresh
      starts := fun idle runs => absurd runs idle }
  | move ports =>
    have issues : p.Issues (p.observe (.move ports)).onRam (p.observe (.move ports)).onDac :=
      issues_tick p ports.1 ports.2
    exact {
      silent := issues.silent
      samples := fun x made => ⟨_, issues.samples x made, sound.toNat_sample_addr⟩
      frames := issues.permitted
      armed := fun earlier x later split raises => issues.armed split raises
      finishes := fun fresh done => sound.past_width ((finished_tick_iff p _ _ fresh).1 done)
      starts := fun idle runs => (running_tick p _ _ runs).resolve_left idle }

/-- After any history the flags of a player tell its state, and whatever happens next, the player keeps to its
part, also on ports that answer anything. -/
theorem ports_are_used_in_order (inputs : List (Input (ρ × δ))) (next : Input (ρ × δ)) :
    ((after reset inputs).registers.value finishedOrReady = 1 ↔ (after reset inputs).state ≠ .running) ∧
    ((after reset inputs).registers.value finished = 1 ↔ (after reset inputs).state = .finished) ∧
    ((after reset inputs).observe next).after = after reset (inputs ++ [next]) ∧
    ((after reset inputs).observe next).Orderly := by
  have sound : (after reset inputs).Sound := sound_reset.along inputs
  refine ⟨sound.finishedOrReady_iff, sound.finished_iff, ?_, sound.orderly_observe next⟩
  rw [after_observe, Input.after_concat]

end Waveform.Player

end InstrumentBus
