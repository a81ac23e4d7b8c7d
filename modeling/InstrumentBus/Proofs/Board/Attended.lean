import InstrumentBus.Proofs.Board.Reach
import InstrumentBus.Proofs.Driver.Mirror

/-!
# A board that others use too

A driver of the supervisor makes its accesses one at a time, and whoever uses the board besides has a turn
ahead of each of them. `Attended` is the transport of such a driver. Beside the board it keeps a record of
what happens in each event, which may depend on who caused the event. Where nobody else has a turn, a driver
finds there what it finds on the board itself (`Alone.performs`).
-/

namespace InstrumentBus.Board

/-- Who causes an event of the board. -/
inductive Turn where
  | driver
  | others
deriving DecidableEq, Repr

/-- The board as a driver of the supervisor reaches it, while others use it too. Every event is entered in
the record by `note`. -/
structure Attended {ρ : Type} (note : Board → Turn → Event → ρ → ρ) where
  board : Board
  /-- What others do ahead of each of the next accesses of the driver. -/
  ahead : List (List Event)
  record : ρ

namespace Attended

variable {ρ : Type} {note : Board → Turn → Event → ρ → ρ}

/-- What an event does. -/
def observe (turn : Turn) (t : Attended note) (e : Event) : Attended note :=
  { t with board := t.board.step e, record := note t.board turn e t.record }

/-- The others have their turn. -/
def interlude (t : Attended note) : Attended note :=
  { (t.ahead.headD []).foldl (observe .others) t with ahead := t.ahead.tail }

/-- The driver makes an access. -/
def access (t : Attended note) (op : Op) : Attended note :=
  t.interlude.observe .driver (.access .supervisor op)

instance : Transport (Attended note) where
  readWord t addr := ((t.interlude.board.readWord .supervisor addr).1, t.access (.readWord addr))
  writeWord t addr w := ((t.interlude.board.writeWord .supervisor addr w).1, t.access (.writeWord addr w))
  readByte t addr := ((t.interlude.board.readByte .supervisor addr).1, t.access (.readByte addr))
  writeByte t addr v := ((t.interlude.board.writeByte .supervisor addr v).1, t.access (.writeByte addr v))

/-- What every event of the others keeps, their turn keeps. -/
theorem interlude_keeps {P : Board → ρ → Prop} {t : Attended note}
    (keeps : ∀ events ∈ t.ahead, ∀ e ∈ events, ∀ b r, P b r → P (b.step e) (note b .others e r))
    (before : P t.board t.record) : P t.interlude.board t.interlude.record := by
  have turn (events : List Event)
      (keeps : ∀ e ∈ events, ∀ b r, P b r → P (b.step e) (note b .others e r)) (t : Attended note)
      (before : P t.board t.record) :
      P (events.foldl (observe .others) t).board (events.foldl (observe .others) t).record := by
    induction events generalizing t with
    | nil => exact before
    | cons e events ih =>
      exact ih (fun e' later => keeps e' (.tail _ later)) _ (keeps e (.head _) _ _ before)
  refine turn _ ?_ t before
  cases plan : t.ahead with
  | nil => exact fun e none => nomatch none
  | cons events later => exact keeps events (plan ▸ .head _)

end Attended

/-! ## A board that nobody else uses -/

/-- The board as a driver of the supervisor reaches it, while nobody else uses it, with a record of what
happens. -/
structure Alone {ρ : Type} (note : Board → Turn → Event → ρ → ρ) where
  board : Board
  record : ρ

namespace Alone

variable {ρ α : Type} {note : Board → Turn → Event → ρ → ρ}

/-- A board that others could use, but do not. -/
def attended (t : Alone note) : Attended note :=
  { board := t.board, ahead := [], record := t.record }

/-- The board without the record. -/
def view (t : Alone note) : View :=
  { side := .supervisor, board := t.board }

/-- The driver makes an access. -/
def access (t : Alone note) (op : Op) : Alone note :=
  { board := t.board.step (.access .supervisor op)
    record := note t.board .driver (.access .supervisor op) t.record }

instance : Transport (Alone note) where
  readWord t addr := ((t.board.readWord .supervisor addr).1, t.access (.readWord addr))
  writeWord t addr w := ((t.board.writeWord .supervisor addr w).1, t.access (.writeWord addr w))
  readByte t addr := ((t.board.readByte .supervisor addr).1, t.access (.readByte addr))
  writeByte t addr v := ((t.board.writeByte .supervisor addr v).1, t.access (.writeByte addr v))

theorem mirrors_attended : Transport.Mirrors (attended : Alone note → Attended note) :=
  ⟨fun _ _ => rfl, fun _ _ _ => rfl⟩

theorem mirrors_view : Transport.Mirrors (view : Alone note → View) :=
  ⟨fun _ _ => rfl, fun _ _ _ => rfl⟩

/-- What an operation comes to where others have no turn, it comes to on the board itself. -/
theorem performs {a : Action (Link (Alone note)) α} {b : Action (Link (Attended note)) α}
    {plain : Action (Link View) α} (beside : Action.Mirrors (Link.map attended) a b)
    (itself : Action.Mirrors (Link.map view) a plain) {t : Alone note} {r : Except DriverError α}
    {u : Attended note} (performed : b.perform (.connect t.attended) = (r, .connect u)) :
    ∃ after : Alone note, u = after.attended ∧ plain.perform (.connect t.view) = (r, .connect after.view) := by
  have mirrored : b.perform (.connect t.attended) = _ := beside (.connect t)
  have seen : plain.perform (.connect t.view) = _ := itself (.connect t)
  rcases outcome : a.perform (.connect t) with ⟨r', ⟨health, after⟩⟩
  rw [outcome, performed] at mirrored
  rw [outcome] at seen
  cases mirrored
  exact ⟨after, rfl, seen⟩

end Alone

end InstrumentBus.Board
