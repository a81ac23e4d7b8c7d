import InstrumentBus.Transport

/-!
# Probes

A probe sits between a program and a transport and records every access with its outcome. It can
also be set to make accesses to chosen addresses fail, and to hold the byte at one address at zero.
-/

namespace InstrumentBus

/-- An access that was made, with its outcome. -/
inductive Probe.Event where
  | readWord (addr : Addr) (outcome : Except Fault Word)
  | writeWord (addr : Addr) (w : Word) (outcome : Except Fault Unit)
  | readByte (addr : Addr) (outcome : Except Fault Byte)
  | writeByte (addr : Addr) (b : Byte) (outcome : Except Fault Unit)

/-- A transport under observation. -/
structure Probe (τ : Type) where
  /-- The transport that the accesses reach. -/
  bus : τ
  /-- The accesses made, the latest first. -/
  events : List Probe.Event
  /-- The addresses at which every access fails. -/
  failing : List Addr
  /-- The address whose byte is written as zero. -/
  stuck : Option Addr

/-! ## Transcripts -/

namespace Probe.Event

/-- The outcome of a read: the value or the name of the fault. -/
def readText {n : Nat} : Except Fault (BitVec n) → String
  | .ok v => "=" ++ Hex.digits v.toNat
  | .error e => "!" ++ e.title

/-- The outcome of a write: nothing or the name of the fault. -/
def writeText : Except Fault Unit → String
  | .ok _ => ""
  | .error e => "!" ++ e.title

/-- An access as a line of a transcript, in hexadecimal. -/
def text : Event → String
  | .readWord addr r => "r " ++ Hex.digits addr.toNat ++ readText r
  | .writeWord addr w r =>
    "w " ++ Hex.digits w.toNat ++ " -> " ++ Hex.digits addr.toNat ++ writeText r
  | .readByte addr r => "rb " ++ Hex.digits addr.toNat ++ readText r
  | .writeByte addr b r =>
    "wb " ++ Hex.digits b.toNat ++ " -> " ++ Hex.digits addr.toNat ++ writeText r

end Probe.Event

/-- The runs of equal neighbours in a list, each with its length. -/
def Probe.runs {α : Type} [BEq α] (l : List α) : List (α × Nat) :=
  l.foldr (fun a runs =>
    match runs with
    | (b, n) :: rest => if a == b then (b, n + 1) :: rest else (a, 1) :: runs
    | [] => [(a, 1)]) []

/-- A line of a transcript that stands for `n` equal accesses. -/
def Probe.runText (line : String) (n : Nat) : String :=
  if n = 1 then line else line ++ " x" ++ toString n

/-! ## Probes -/

namespace Probe

variable {τ : Type}

/-- A probe that has seen nothing and does not interfere. -/
def attach (bus : τ) : Probe τ :=
  { bus, events := [], failing := [], stuck := none }

/-- The probe without its record. -/
def clear (p : Probe τ) : Probe τ :=
  { p with events := [] }

/-- The accesses in the order in which they were made. -/
def record (p : Probe τ) : List Event :=
  p.events.reverse

/-- The accesses as lines, with one line for a run of equal accesses. -/
def transcript (p : Probe τ) : List String :=
  (runs (p.record.map Event.text)).map fun (line, n) => runText line n

/-- An access through the probe: it fails at a failing address and reaches the transport elsewhere;
either way it is recorded. -/
def observe {α : Type} (p : Probe τ) (addr : Addr) (event : Except Fault α → Event)
    (reach : τ → Except Fault α × τ) : Except Fault α × Probe τ :=
  if p.failing.contains addr then
    (.error (.noAck addr), { p with events := event (.error (.noAck addr)) :: p.events })
  else
    let (outcome, bus) := reach p.bus
    (outcome, { p with bus, events := event outcome :: p.events })

instance [Transport τ] : Transport (Probe τ) where
  readWord p addr := p.observe addr (.readWord addr) fun t => Transport.readWord t addr
  writeWord p addr w := p.observe addr (.writeWord addr w) fun t => Transport.writeWord t addr w
  readByte p addr := p.observe addr (.readByte addr) fun t => Transport.readByte t addr
  writeByte p addr b :=
    let b := if p.stuck = some addr then 0 else b
    p.observe addr (.writeByte addr b) fun t => Transport.writeByte t addr b

end Probe

end InstrumentBus
