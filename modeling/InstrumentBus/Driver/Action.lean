import InstrumentBus.Driver.Error

/-!
# Actions of drivers

An action works on a transport and ends with a result or an error. The transport that an action
leaves behind counts in either case, since accesses made before an error have taken place.

Drivers hold a link to the transport instead of the transport itself. Each operation of a driver
locks the link once, for all its accesses, and fails if the transport is gone or was poisoned.
-/

namespace InstrumentBus

/-- An action on a state of type `σ` with a result of type `α`. -/
abbrev Action (σ α : Type) := ExceptT DriverError (StateM σ) α

namespace Action

variable {σ α : Type}

/-- The outcome of an action and the state that it leaves behind. -/
def perform (a : Action σ α) (s : σ) : Except DriverError α × σ :=
  (a.run).run s

/-- The action of an access. -/
def ofAccess (f : σ → Except Fault α × σ) : Action σ α :=
  ExceptT.mk fun s => (f s).map (Except.mapError .fault) id

/-- The action that has the outcome `r` and leaves the state as it is. -/
def ofExcept (r : Except DriverError α) : Action σ α :=
  ExceptT.mk fun s => (r, s)

end Action

/-! ## Polling -/

/-- Try a condition up to `limit` times, until it holds. -/
def pollUntil {ε σ : Type} (timeout : ε) (condition : ExceptT ε (StateM σ) Bool) :
    Nat → ExceptT ε (StateM σ) Unit
  | 0 => throw timeout
  | limit + 1 => do
    if ← condition then return () else pollUntil timeout condition limit

/-- The number of polls that a driver makes unless told otherwise. -/
def standardPollLimit : Nat := 100000

/-- Wait for a condition, which the error names if it does not come to hold. -/
def waitFor {σ : Type} (name : String) (limit : Nat) (condition : Action σ Bool) : Action σ Unit :=
  pollUntil (.timeout name limit) condition limit

/-! ## Links -/

/-- The state of the transport behind a link. -/
inductive Link.Health where
  /-- The transport can be used. -/
  | live
  /-- An operation stopped in the middle; drivers do not touch the transport any more. -/
  | poisoned
  | dropped
deriving DecidableEq, Repr

/-- What drivers hold instead of a transport. -/
structure Link (τ : Type) where
  health : Link.Health
  bus : τ

namespace Link

variable {τ α : Type}

/-- A link to a transport that can be used. -/
def connect (bus : τ) : Link τ :=
  { health := .live, bus }

/-- The link after an operation stopped in the middle; a transport that is gone stays gone. -/
def poison (l : Link τ) : Link τ :=
  if l.health = .dropped then l else { l with health := .poisoned }

/-- The link after the transport was dropped. -/
def drop (l : Link τ) : Link τ :=
  { l with health := .dropped }

/-- Run an action on the transport, under the lock of the link. -/
def locked (a : Action τ α) : Action (Link τ) α :=
  ExceptT.mk fun link =>
    match link.health with
    | .live => (a.perform link.bus).map id fun bus => { link with bus }
    | .poisoned => (.error .poisoned, link)
    | .dropped => (.error .disconnected, link)

/-- Run an action on the transport itself, which its owner may do as long as there is one, whatever an
earlier operation left behind. -/
def unlocked (a : Action τ α) : Action (Link τ) α :=
  ExceptT.mk fun link =>
    match link.health with
    | .dropped => (.error .disconnected, link)
    | _ => (a.perform link.bus).map id fun bus => { link with bus }

end Link

end InstrumentBus
