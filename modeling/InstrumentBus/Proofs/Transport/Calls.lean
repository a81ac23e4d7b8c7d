import InstrumentBus.Transport

/-!
# Calls on two transports

A call is an access or a block of word accesses, one after the other. Where the accesses inside some part of
the address space come out alike on two transports that are related, and leave them related, so do all calls
inside this part, any number of them (`Transport.Refines.calls`).
-/

namespace InstrumentBus.Transport

/-- A call on a transport. -/
inductive Call where
  | readWord (addr : Addr)
  | writeWord (addr : Addr) (w : Word)
  | readByte (addr : Addr)
  | writeByte (addr : Addr) (v : Byte)
  | readWords (addr : Addr) (count : Nat)
  | writeWords (addr : Addr) (ws : List Word)
deriving DecidableEq, Repr

/-- What a call delivers. -/
inductive Answer where
  | word (w : Word)
  | byte (v : Byte)
  | words (ws : List Word)
  | written
deriving DecidableEq, Repr

/-- The addresses of the words of a block. -/
def blockAddresses (addr : Addr) : Nat → List Addr
  | 0 => []
  | count + 1 => addr :: blockAddresses (addr + 4) count

/-- The addresses of the accesses of a call. -/
def Call.addresses : Call → List Addr
  | .readWord addr => [addr]
  | .writeWord addr _ => [addr]
  | .readByte addr => [addr]
  | .writeByte addr _ => [addr]
  | .readWords addr count => blockAddresses addr count
  | .writeWords addr ws => blockAddresses addr ws.length

section Calls

variable {τ : Type} [Transport τ]

/-- The outcome of a call, and the transport after it. -/
def call (t : τ) : Call → Except Fault Answer × τ
  | .readWord addr => (readWord t addr).map (Except.map .word) id
  | .writeWord addr w => (writeWord t addr w).map (Except.map fun _ => .written) id
  | .readByte addr => (readByte t addr).map (Except.map .byte) id
  | .writeByte addr v => (writeByte t addr v).map (Except.map fun _ => .written) id
  | .readWords addr count => (readWords t addr count).map (Except.map .words) id
  | .writeWords addr ws => (writeWords t addr ws).map (Except.map fun _ => .written) id

/-- The outcomes of several calls in turn, and the transport after the last. -/
def calls (t : τ) : List Call → List (Except Fault Answer) × τ
  | [] => ([], t)
  | c :: rest => (calls (call t c).2 rest).map ((call t c).1 :: ·) id

end Calls

/-! ## Related transports -/

variable {τ σ α β : Type} {R : τ → σ → Prop}

/-- Something came out alike on two transports and left them related. -/
structure Agree (R : τ → σ → Prop) (x : α × τ) (y : α × σ) : Prop where
  outcome : x.1 = y.1
  after : R x.2 y.2

theorem Agree.map {x : α × τ} {y : α × σ} (agree : Agree R x y) (f : α → β) :
    Agree R (x.map f id) (y.map f id) :=
  ⟨congrArg f agree.outcome, agree.after⟩

variable [Transport τ] [Transport σ]

/-- Every access inside a part of the address space comes out alike on related transports. -/
structure Refines (Inside : Addr → Prop) (R : τ → σ → Prop) : Prop where
  readWord : ∀ {t s addr}, R t s → Inside addr → Agree R (readWord t addr) (readWord s addr)
  writeWord : ∀ {t s addr}, R t s → Inside addr → ∀ w, Agree R (writeWord t addr w) (writeWord s addr w)
  readByte : ∀ {t s addr}, R t s → Inside addr → Agree R (readByte t addr) (readByte s addr)
  writeByte : ∀ {t s addr}, R t s → Inside addr → ∀ v, Agree R (writeByte t addr v) (writeByte s addr v)

namespace Refines

variable {Inside : Addr → Prop} {t : τ} {s : σ}

theorem readWords (refines : Refines Inside R) (related : R t s) {addr : Addr} {count : Nat}
    (inside : ∀ a ∈ blockAddresses addr count, Inside a) :
    Agree R (Transport.readWords t addr count) (Transport.readWords s addr count) := by
  induction count generalizing t s addr with
  | zero => exact ⟨rfl, related⟩
  | succ count ih =>
    have first := refines.readWord related (inside addr (.head _))
    have later : ∀ a ∈ blockAddresses (addr + 4) count, Inside a := fun a listed => inside a (.tail _ listed)
    unfold Transport.readWords
    rcases left : Transport.readWord t addr with ⟨x, t'⟩
    rcases right : Transport.readWord s addr with ⟨y, s'⟩
    rw [left, right] at first
    obtain ⟨rfl, after⟩ := first
    cases x with
    | error e => exact ⟨rfl, after⟩
    | ok w =>
      have rest := ih after later
      dsimp only
      rcases left : Transport.readWords t' (addr + 4) count with ⟨xs, t''⟩
      rcases right : Transport.readWords s' (addr + 4) count with ⟨ys, s''⟩
      rw [left, right] at rest
      obtain ⟨rfl, after⟩ := rest
      cases xs with
      | error e => exact ⟨rfl, after⟩
      | ok ws => exact ⟨rfl, after⟩

theorem writeWords (refines : Refines Inside R) (related : R t s) {addr : Addr} {ws : List Word}
    (inside : ∀ a ∈ blockAddresses addr ws.length, Inside a) :
    Agree R (Transport.writeWords t addr ws) (Transport.writeWords s addr ws) := by
  induction ws generalizing t s addr with
  | nil => exact ⟨rfl, related⟩
  | cons w ws ih =>
    have first := refines.writeWord related (inside addr (.head _)) w
    have later : ∀ a ∈ blockAddresses (addr + 4) ws.length, Inside a :=
      fun a listed => inside a (.tail _ listed)
    unfold Transport.writeWords
    rcases left : Transport.writeWord t addr w with ⟨x, t'⟩
    rcases right : Transport.writeWord s addr w with ⟨y, s'⟩
    rw [left, right] at first
    obtain ⟨rfl, after⟩ := first
    cases x with
    | error e => exact ⟨rfl, after⟩
    | ok done => exact ih after later

theorem call (refines : Refines Inside R) (related : R t s) {c : Call}
    (inside : ∀ a ∈ c.addresses, Inside a) : Agree R (Transport.call t c) (Transport.call s c) := by
  cases c with
  | readWord addr => exact (refines.readWord related (inside addr (.head _))).map _
  | writeWord addr w => exact (refines.writeWord related (inside addr (.head _)) w).map _
  | readByte addr => exact (refines.readByte related (inside addr (.head _))).map _
  | writeByte addr v => exact (refines.writeByte related (inside addr (.head _)) v).map _
  | readWords addr count => exact (refines.readWords related inside).map _
  | writeWords addr ws => exact (refines.writeWords related inside).map _

/-- All calls inside the part come out alike. -/
theorem calls (refines : Refines Inside R) (related : R t s) {cs : List Call}
    (inside : ∀ c ∈ cs, ∀ a ∈ c.addresses, Inside a) :
    Agree R (Transport.calls t cs) (Transport.calls s cs) := by
  induction cs generalizing t s with
  | nil => exact ⟨rfl, related⟩
  | cons c cs ih =>
    obtain ⟨outcome, after⟩ := refines.call related (inside c (.head _))
    unfold Transport.calls
    rw [outcome]
    exact (ih after fun c' later => inside c' (.tail _ later)).map _

end Refines

end InstrumentBus.Transport
