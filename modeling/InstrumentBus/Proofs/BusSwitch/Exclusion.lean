import InstrumentBus.Proofs.BusSwitch.Selection
import InstrumentBus.Ram

/-!
# A switched device serves its owner alone

A device behind a switch behaves as if the connected masters were the only ones: `forwarded` lists
what a run of operations lets through, and `feed` gives that to a device without a switch.
`step_simulates` compares the two for one operation and `run_simulates` for a run.
`switched_device_serves_owner` joins it to the range of the selection and to what the masters that
are not connected see.
-/

namespace InstrumentBus.BusSwitch

/-! ## Operations and what they let through -/

/-- What can happen to a switch: a transaction of a master, directly or through the master's view, a
selection, a transaction on the control region, or a step of the device. -/
inductive Op where
  | transact (master : Nat) (req : Request)
  | port (master : Nat) (req : Request)
  | select (master : Nat)
  | control (req : Request)
  | tick
deriving DecidableEq, Repr

/-- The master and the request of a transaction for the device. -/
def Op.issued? : Op → Option (Nat × Request)
  | .transact master req => some (master, req)
  | .port master req => some (master, req)
  | _ => none

/-- What a device without a switch meets: a transaction, or a step. -/
inductive Stimulus where
  | request (req : Request)
  | tick
deriving DecidableEq, Repr

variable {σ : Type} [Target σ] [Clocked σ]

/-- The answer to an operation, if it has one, and the switch after it. A selection that is refused
leaves the switch as it is. -/
def step (s : BusSwitch σ) : Op → Option Response × BusSwitch σ
  | .transact master req => (s.transact master req).map some id
  | .port master req => (Target.transact (View.mk master s) req).map some View.switch
  | .select master =>
    match s.select master with
    | .ok t => (none, t)
    | .error _ => (none, s)
  | .control req => (s.transactControl req).map some id
  | .tick => (none, s.tick)

/-- The switch after several operations. -/
def run (s : BusSwitch σ) (ops : List Op) : BusSwitch σ :=
  ops.foldl (fun s op => (s.step op).2) s

/-- What an operation lets through to the device: a transaction of the connected master, and every
tick. -/
def passed (s : BusSwitch σ) (op : Op) : List Stimulus :=
  match op.issued? with
  | some (master, req) => if master = s.active then [.request req] else []
  | none => if op = .tick then [.tick] else []

/-- What a run lets through to the device, in order. -/
def forwarded (s : BusSwitch σ) : List Op → List Stimulus
  | [] => []
  | op :: rest => s.passed op ++ forwarded (s.step op).2 rest

/-- The answer to an operation, if it is a transaction of the connected master. -/
def granted (s : BusSwitch σ) (op : Op) : List Response :=
  match op.issued? with
  | some (master, _) => if master = s.active then (s.step op).1.toList else []
  | none => []

/-- The answers that a run gives to the masters that were connected when they asked, in order. -/
def answersToOwners (s : BusSwitch σ) : List Op → List Response
  | [] => []
  | op :: rest => s.granted op ++ answersToOwners (s.step op).2 rest

/-- The answers of a device without a switch, and the device afterwards. -/
def feed (device : σ) : List Stimulus → List Response × σ
  | [] => ([], device)
  | .request req :: rest =>
    let (answer, device) := Target.transact device req
    (feed device rest).map (answer :: ·) id
  | .tick :: rest => feed (Clocked.tick device) rest

/-! ## One operation -/

theorem step_port (s : BusSwitch σ) (master : Nat) (req : Request) :
    s.step (.port master req) = s.step (.transact master req) :=
  rfl

/-- A transaction of a master that is not connected is answered by an idle bus. -/
theorem step_of_ne_active {s : BusSwitch σ} {op : Op} {master : Nat} {req : Request}
    (issued : op.issued? = some (master, req)) (other : master ≠ s.active) :
    s.step op = (some .idle, s) := by
  have ignored : s.step (.transact master req) = (some .idle, s) := by
    show (s.transact master req).map some id = _
    rw [transact_of_ne_active other]
    rfl
  cases op with
  | transact m r => cases issued; exact ignored
  | port m r => cases issued; rw [step_port]; exact ignored
  | select m => cases issued
  | control r => cases issued
  | tick => cases issued

/-- No operation disconnects a switch from its masters. -/
theorem step_active_lt {s : BusSwitch σ} (current : s.active < s.count) (few : s.count < 2 ^ 32)
    (op : Op) : (s.step op).2.active < (s.step op).2.count ∧ (s.step op).2.count = s.count := by
  have transacted (master : Nat) (req : Request) :
      (s.step (.transact master req)).2.active < (s.step (.transact master req)).2.count ∧
        (s.step (.transact master req)).2.count = s.count := by
    show (s.transact master req).2.active < (s.transact master req).2.count ∧
      (s.transact master req).2.count = s.count
    rw [active_transact, count_transact]
    exact ⟨current, rfl⟩
  cases op with
  | transact master req => exact transacted master req
  | port master req => rw [step_port]; exact transacted master req
  | select master =>
    by_cases named : master < s.count
    · obtain ⟨t, selected, connected, sameCount, -⟩ := active_select current few named
      simp only [step, selected, connected, sameCount]
      exact ⟨named, trivial⟩
    · simp only [step, select, if_neg named]
      exact ⟨current, trivial⟩
  | control req =>
    show (s.transactControl req).2.active < (s.transactControl req).2.count ∧
      (s.transactControl req).2.count = s.count
    rw [active_transactControl current, count_transactControl]
    exact ⟨ownerAfter_lt current req, rfl⟩
  | tick => exact ⟨current, rfl⟩

/-- One operation does to the device, and answers to its owner, what it lets through. -/
theorem step_simulates {s : BusSwitch σ} (op : Op) (rest : List Stimulus) :
    feed s.device (s.passed op ++ rest) =
      (feed (s.step op).2.device rest).map (s.granted op ++ ·) id := by
  have silent {t : BusSwitch σ} (same : t.device = s.device) :
      feed s.device ([] ++ rest) = (feed t.device rest).map ([] ++ ·) id := by
    rw [same]
    rfl
  -- A transaction is the same whichever way it is issued, so both ways share this argument.
  have transacted (op : Op) (master : Nat) (req : Request) (issued : op.issued? = some (master, req))
      (plain : s.step op = s.step (.transact master req)) :
      feed s.device (s.passed op ++ rest) =
        (feed (s.step op).2.device rest).map (s.granted op ++ ·) id := by
    by_cases owner : master = s.active
    · have outcome : s.step (.transact master req) = (some (Target.transact s.device req).1,
          { s with device := (Target.transact s.device req).2 }) := by
        show (s.transact master req).map some id = _
        rw [owner, transact_of_active]
        rfl
      simp only [passed, granted, issued, if_pos owner, plain, outcome]
      rfl
    · have outcome := step_of_ne_active issued owner
      simp only [passed, granted, issued, if_neg owner, outcome]
      exact silent rfl
  cases op with
  | transact master req => exact transacted _ master req rfl rfl
  | port master req => exact transacted _ master req rfl rfl
  | select master =>
    refine silent (t := (s.step (.select master)).2) ?_
    by_cases named : master < s.count
    · simp only [step, select, if_pos named, device_connect]
    · simp only [step, select, if_neg named]
  | control req => exact silent (t := (s.step (.control req)).2) (device_transactControl s req)
  | tick => rfl

/-! ## Runs -/

theorem run_active_lt {s : BusSwitch σ} (current : s.active < s.count) (few : s.count < 2 ^ 32)
    (ops : List Op) : (s.run ops).active < (s.run ops).count ∧ (s.run ops).count = s.count := by
  induction ops generalizing s with
  | nil => exact ⟨current, rfl⟩
  | cons op rest ih =>
    obtain ⟨next, same⟩ := step_active_lt current few op
    obtain ⟨last, sameRest⟩ := ih next (same ▸ few)
    exact ⟨last, sameRest.trans same⟩

/-- A run does to the device, and answers to its owners, what it lets through. -/
theorem run_simulates (s : BusSwitch σ) (ops : List Op) :
    feed s.device (s.forwarded ops) = (s.answersToOwners ops, (s.run ops).device) := by
  induction ops generalizing s with
  | nil => rfl
  | cons op rest ih =>
    show feed s.device (s.passed op ++ (s.step op).2.forwarded rest) = _
    rw [step_simulates, ih]
    rfl

/-- However a switch is used from its assembly on, a master that exists is connected and every
master can be, a transaction of any other master is answered by an acknowledged zero and leaves
everything as it is, and the device with its answers to its owners is what the owners' transactions
and the ticks alone make of it. -/
theorem switched_device_serves_owner (masters : Array String) (device : σ)
    (populated : 1 ≤ masters.size) (indexed : masters.size < 2 ^ 32) :
    ∃ s, build masters device = .ok s ∧ ∀ ops : List Op,
      (s.run ops).active < masters.size ∧
      (∀ master < masters.size,
        ∃ t, (s.run ops).select master = .ok t ∧ t.active = master) ∧
      (∀ op master req, op.issued? = some (master, req) → master ≠ (s.run ops).active →
        (s.run ops).step op = (some { data := 0, ack := true }, s.run ops)) ∧
      feed device (s.forwarded ops) = (s.answersToOwners ops, (s.run ops).device) := by
  obtain ⟨s, built, size, first, content⟩ := build_spec device populated
  refine ⟨s, built, fun ops => ?_⟩
  obtain ⟨range, sameCount⟩ := run_active_lt (s := s) (by omega) (by omega) ops
  refine ⟨by omega, fun master named => ?_, fun op master req issued other => ?_, ?_⟩
  · obtain ⟨t, selected, connected, -⟩ := active_select range (by omega) (by omega : master < _)
    exact ⟨t, selected, connected⟩
  · exact step_of_ne_active issued other
  · rw [← content]
    exact run_simulates s ops

/-- Two masters take turns on a RAM: it sees the first write of the supervisor, the write that the
player makes once it is connected, and the read of the supervisor after a selection that names
nobody, but not the write of the player before its turn or the read of the supervisor after it. -/
theorem two_masters_take_turns :
    ∃ s, build #["supervisor", "player"] (Ram.zero 4) = .ok s ∧
      feed (Ram.zero 4)
          [.request (.writeWord 0 5), .request (.writeWord 0 7), .tick, .request (.read 0)] =
        (s.answersToOwners [.transact 0 (.writeWord 0 5), .port 1 (.writeWord 0 6), .select 1,
            .port 1 (.writeWord 0 7), .transact 0 (.read 0), .control (.writeWord 0 9), .tick,
            .transact 0 (.read 0)],
          { words := #[7] }) := by
  obtain ⟨s, built, used⟩ :=
    switched_device_serves_owner #["supervisor", "player"] (Ram.zero 4) (by decide) (by decide)
  have atReset : s = reset #["supervisor", "player"] (Ram.zero 4) := by
    cases built
    rfl
  subst atReset
  obtain ⟨-, -, -, alone⟩ := used [.transact 0 (.writeWord 0 5), .port 1 (.writeWord 0 6),
    .select 1, .port 1 (.writeWord 0 7), .transact 0 (.read 0), .control (.writeWord 0 9), .tick,
    .transact 0 (.read 0)]
  exact ⟨_, built, alone⟩

end InstrumentBus.BusSwitch
