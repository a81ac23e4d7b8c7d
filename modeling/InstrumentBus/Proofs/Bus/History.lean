import InstrumentBus.Bus

/-!
# Histories of a device on a bus

Two things happen to a device: the masters of its bus make transactions, and it moves on by itself. A step may
depend on what the device finds around it, such as the devices behind its ports; a clocked device finds nothing. A
history is any sequence of both, in surroundings that change from step to step. What neither breaks holds after
every history (`Input.after_keeps`), a map that commutes with both commutes with histories (`Input.map_after`), and
what only steps move follows from what they find (`Input.fold_after`).
-/

namespace InstrumentBus

/-- A property of a target that no transaction breaks. -/
def Target.Keeps {σ : Type} [Target σ] (P : σ → Prop) : Prop :=
  ∀ s req, P s → P (Target.transact s req).2

/-- Anything that moves on by itself, in surroundings that may differ from step to step. -/
class Moving (ε σ : Type) where
  move : σ → ε → σ

instance {σ : Type} [Clocked σ] : Moving Unit σ where
  move s _ := Clocked.tick s

/-- A property that no step breaks, whatever surrounds it. -/
def Moving.Keeps (ε : Type) {σ : Type} [Moving ε σ] (P : σ → Prop) : Prop :=
  ∀ (s : σ) (around : ε), P s → P (Moving.move s around)

/-- What can happen to a device: a transaction on its bus, or a step. -/
inductive Input (ε : Type) where
  | bus (req : Request)
  | move (around : ε)
deriving DecidableEq, Repr

namespace Input

/-- A step of a device that nothing surrounds. -/
@[match_pattern]
abbrev tick : Input Unit :=
  .move ()

variable {ε σ τ α β : Type} [Target σ] [Moving ε σ] [Target τ] [Moving ε τ]

/-- The device after it happened. -/
def step (s : σ) : Input ε → σ
  | .bus req => (Target.transact s req).2
  | .move around => Moving.move s around

/-- The device after a history. -/
def after (s : σ) (inputs : List (Input ε)) : σ :=
  inputs.foldl step s

/-- What the steps of a history find in the device. -/
def seen (observe : σ → β) (s : σ) : List (Input ε) → List β
  | [] => []
  | .bus req :: rest => seen observe (Target.transact s req).2 rest
  | .move around :: rest => observe s :: seen observe (Moving.move s around) rest

variable {s : σ} {inputs : List (Input ε)}

theorem after_append (s : σ) (inputs more : List (Input ε)) :
    after s (inputs ++ more) = after (after s inputs) more :=
  List.foldl_append

theorem after_concat (s : σ) (inputs : List (Input ε)) (i : Input ε) :
    after s (inputs ++ [i]) = step (after s inputs) i :=
  after_append s inputs [i]

/-! ## From inputs to histories -/

theorem after_keeps {P : σ → Prop} (bus : Target.Keeps P) (steps : Moving.Keeps ε P) (start : P s)
    (inputs : List (Input ε)) : P (after s inputs) := by
  induction inputs generalizing s with
  | nil => exact start
  | cons i rest ih =>
    cases i with
    | bus req => exact ih (bus s req start)
    | move around => exact ih (steps s around start)

theorem map_after {f : σ → τ} (commutes : ∀ s (i : Input ε), f (step s i) = step (f s) i) (s : σ)
    (inputs : List (Input ε)) : f (after s inputs) = after (f s) inputs := by
  induction inputs generalizing s with
  | nil => rfl
  | cons i rest ih => exact (ih (step s i)).trans (congrArg (after · rest) (commutes s i))

/-- A part of the device that no transaction reaches, and that a step changes by what it finds there. -/
theorem fold_after {P : σ → Prop} {part : σ → α} {observe : σ → β} {next : α → β → α}
    (bus : ∀ s req, P s → P (Target.transact s req).2 ∧ part (Target.transact s req).2 = part s)
    (steps : ∀ s (around : ε), P s →
      P (Moving.move s around) ∧ part (Moving.move s around) = next (part s) (observe s))
    (start : P s) (inputs : List (Input ε)) :
    part (after s inputs) = (seen observe s inputs).foldl next (part s) := by
  induction inputs generalizing s with
  | nil => rfl
  | cons i rest ih =>
    cases i with
    | bus req =>
      obtain ⟨kept, same⟩ := bus s req start
      exact (ih kept).trans (by rw [same]; rfl)
    | move around =>
      obtain ⟨kept, moved⟩ := steps s around start
      exact (ih kept).trans (by rw [moved]; rfl)

/-! ## What steps find -/

theorem seen_concat_move (observe : σ → β) (s : σ) (inputs : List (Input ε)) (around : ε) :
    seen observe s (inputs ++ [.move around]) = seen observe s inputs ++ [observe (after s inputs)] := by
  induction inputs generalizing s with
  | nil => rfl
  | cons i rest ih =>
    cases i with
    | bus req => exact ih _
    | move found => exact congrArg (observe s :: ·) (ih _)

/-- A step finds the device once. -/
theorem length_seen [Moving Unit σ] (observe : σ → β) (s : σ) (inputs : List (Input Unit)) :
    (seen observe s inputs).length = inputs.count .tick := by
  induction inputs generalizing s with
  | nil => rfl
  | cons i rest ih =>
    cases i with
    | bus req =>
      rw [List.count_cons_of_ne (by rintro ⟨⟩)]
      exact ih _
    | move around =>
      rw [List.count_cons_self]
      exact congrArg (· + 1) (ih _)

end Input

end InstrumentBus
