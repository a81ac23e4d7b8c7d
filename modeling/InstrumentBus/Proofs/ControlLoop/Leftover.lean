import Mathlib.Data.List.Induction
import InstrumentBus.Proofs.ControlLoop.Handshake

/-!
# Orders that are left over

A call that gives up leaves its order with the block, which carries it out in the next step and holds the
answer until somebody collects it. To a block that holds an answer, the inputs and the start of another
call are nothing new (`Answered.put`). What is collected then, and what the parameters are afterwards, follows
from the order that was left over (`Recorded.Follows.served`); only the count also depends on when that was.
-/

namespace InstrumentBus.ControlLoop

/-! ## Stores that differ in the count -/

namespace Store

variable {s t u : Store} {o : Order}

/-- Two stores have the same values, but for the count. -/
def Alike (s t : Store) : Prop :=
  ∀ c, c ≠ .cycles → s c = t c

theorem Alike.symm (alike : Alike s t) : Alike t s :=
  fun c other => (alike c other).symm

theorem Alike.trans (first : Alike s t) (second : Alike t u) : Alike s u :=
  fun c other => (first c other).trans (second c other)

theorem alike_count (s : Store) : Alike s.count s :=
  fun _ other => s.count_of_ne other

theorem Alike.set (alike : Alike s t) (c : Command) (v : Value) : Alike (s.set c v) (t.set c v) := by
  intro d other
  simp only [Store.set, alike d other]

theorem Alike.carryOut (alike : Alike s t) (o : Order) : Alike (s.carryOut o) (t.carryOut o) := by
  cases o with
  | read c => exact alike
  | write c v =>
    simp only [Store.carryOut]
    split
    · exact (alike.set c v).set .cycles 0
    · exact alike.set c v

/-- Alike stores answer alike, unless they are asked for the count. -/
theorem Alike.answer (alike : Alike s t) (other : o ≠ .read .cycles) : s.answer o = t.answer o := by
  cases o with
  | read c => exact alike c fun counted => other (counted ▸ rfl)
  | write c v => rw [answer_write, answer_write]

/-- To carry out an order once more changes nothing. -/
theorem alike_carryOut_twice (s : Store) (o : Order) : Alike ((s.carryOut o).carryOut o) (s.carryOut o) := by
  cases o with
  | read c => exact fun _ _ => rfl
  | write c v =>
    intro d other
    by_cases status : c = .status
    · simp only [carryOut, if_pos status, set, if_neg other]
      split <;> rfl
    · simp only [carryOut, if_neg status, set]
      split <;> rfl

theorem answer_carryOut (s : Store) (o : Order) (other : o ≠ .read .cycles) :
    (s.carryOut o).answer o = s.answer o := by
  cases o with
  | read c => rfl
  | write c v => rw [answer_write, answer_write]

/-- The store after several orders. -/
def carryOutAll (s : Store) (orders : List Order) : Store :=
  orders.foldl carryOut s

theorem carryOutAll_concat (s : Store) (orders : List Order) (o : Order) :
    s.carryOutAll (orders ++ [o]) = (s.carryOutAll orders).carryOut o :=
  List.foldl_concat ..

/-- But for the count, only the orders matter. -/
theorem alike_run (s : Store) (steps : List (Option Order)) :
    Alike (s.run steps) (s.carryOutAll (steps.filterMap id)) := by
  induction steps using List.reverseRecOn with
  | nil => exact fun _ _ => rfl
  | append_singleton steps due ih =>
    rw [run_concat, List.filterMap_append]
    cases due with
    | none =>
      rw [show [none].filterMap id = ([] : List Order) from rfl, List.append_nil]
      exact (alike_count _).trans ih
    | some o =>
      rw [show [some o].filterMap id = [o] from rfl, carryOutAll_concat]
      exact (alike_count _).trans (ih.carryOut o)

/-- The last answer is that to the last order. -/
theorem answer_of_answers {steps : List (Option Order)} {done : List Order} {values : List Value} {v : Value}
    (carriedOut : steps.filterMap id = done ++ [o]) (answered : s.answers steps = values ++ [v])
    (other : o ≠ .read .cycles) : v = (s.carryOutAll done).answer o := by
  induction steps using List.reverseRecOn with
  | nil => simp at carriedOut
  | append_singleton steps due ih =>
    rw [List.filterMap_append] at carriedOut
    rw [answers_concat] at answered
    cases due with
    | none => exact ih (by simpa using carriedOut) (by simpa using answered)
    | some last =>
      obtain ⟨earlier, same⟩ := List.append_inj' carriedOut rfl
      obtain ⟨-, value⟩ := List.append_inj' answered rfl
      obtain rfl : last = o := by simpa using same
      obtain rfl : (s.run steps).answer last = v := by simpa using value
      rw [← earlier]
      exact (alike_run s steps).answer other

end Store

namespace Recorded

variable {s : Store} {done : List Order} {values : List Value} {o : Order} {r after : Recorded} {i : Nat}

/-! ## A block that is found with an order -/

/-- What a call puts in place changes nothing about an answer that stands. -/
theorem Answered.put (answered : Answered s done values r) (inside : i < 4) {f : Field}
    (found : Engine.layout.fields[i]? = some f) (granted : f.access.writableBy .supervisor = true) {w : Word}
    (held : i = Engine.start → w &&& widthMask f.width = 1) : Answered s done values (r.put i w) := by
  have same {j : Nat} (output : 4 ≤ j) : (r.put i w).value j = r.value j := by
    rw [value_put answered.fits found granted, if_neg (by omega)]
  refine ⟨?_, ?_, (same (by decide)).trans answered.finished⟩
  · rw [same (by decide), same (by decide)]
    exact answered.toFollows.put i w
  · rw [value_put answered.fits found granted]
    split
    · next start => exact held start.symm
    · exact answered.started

/-- But for the count, the orders that were carried out tell the parameters. -/
theorem Follows.alike (follows : Follows s done values r) :
    Store.Alike r.block.parameter (s.carryOutAll done) := by
  rw [follows.held, ← follows.carriedOut]
  exact Store.alike_run s r.orders

/-- An order that is carried out between two points, or was shortly before: its answer and what it makes of
the parameters follow from the parameters at the first point. -/
theorem Follows.served {earlier : List Value} {v : Value}
    (before : Follows s done earlier r ∨ Follows s (done ++ [o]) earlier r)
    (ended : Follows s (done ++ [o]) (values ++ [v]) after) :
    (o ≠ .read .cycles → v = Store.answer r.block.parameter o) ∧
      Store.Alike after.block.parameter (Store.carryOut r.block.parameter o) := by
  have left := ended.alike
  rw [Store.carryOutAll_concat] at left
  have answer (other : o ≠ .read .cycles) : v = (s.carryOutAll done).answer o :=
    Store.answer_of_answers ended.carriedOut ended.answered other
  rcases before with follows | follows
  · have here := follows.alike.symm
    exact ⟨fun other => (answer other).trans (here.answer other), left.trans (here.carryOut o)⟩
  · have here := follows.alike
    rw [Store.carryOutAll_concat] at here
    refine ⟨fun other => ?_, ?_⟩
    · rw [answer other, here.answer other, Store.answer_carryOut _ o other]
    · exact left.trans ((Store.alike_carryOut_twice _ o).symm.trans (here.symm.carryOut o))

end Recorded

end InstrumentBus.ControlLoop
