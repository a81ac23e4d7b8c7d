import InstrumentBus.Driver.Action

/-!
# How actions are performed

An action that consists of two starts the second where the first succeeded, and ends where the first
failed. These lemmas take a driver's operation apart, one access at a time.
-/

namespace InstrumentBus.Action

variable {σ α β : Type}

@[simp]
theorem perform_pure (v : α) (s : σ) : (pure v : Action σ α).perform s = (.ok v, s) :=
  rfl

@[simp]
theorem perform_ofExcept (r : Except DriverError α) (s : σ) : (ofExcept r).perform s = (r, s) :=
  rfl

theorem perform_ofAccess_of_ok {f : σ → Except Fault α × σ} {s after : σ} {v : α}
    (access : f s = (.ok v, after)) : (ofAccess f).perform s = (.ok v, after) := by
  show (f s).map (Except.mapError DriverError.fault) id = _
  rw [access]
  rfl

theorem perform_ofAccess_of_error {f : σ → Except Fault α × σ} {s after : σ} {e : Fault}
    (access : f s = (.error e, after)) : (ofAccess f).perform s = (.error (.fault e), after) := by
  show (f s).map (Except.mapError DriverError.fault) id = _
  rw [access]
  rfl

theorem perform_bind (a : Action σ α) (next : α → Action σ β) (s : σ) :
    (a >>= next).perform s =
      match a.perform s with
      | (.ok v, after) => (next v).perform after
      | (.error e, after) => (.error e, after) := by
  show (match a.perform s with
    | (x, after) => (ExceptT.bindCont next x : StateM σ (Except DriverError β)).run after) = _
  rcases a.perform s with ⟨e | v, after⟩
  · rfl
  · rfl

theorem perform_bind_of_ok {a : Action σ α} {s after : σ} {v : α}
    (first : a.perform s = (.ok v, after)) (next : α → Action σ β) :
    (a >>= next).perform s = (next v).perform after := by
  rw [perform_bind, first]

theorem perform_bind_of_error {a : Action σ α} {s after : σ} {e : DriverError}
    (first : a.perform s = (.error e, after)) (next : α → Action σ β) :
    (a >>= next).perform s = (.error e, after) := by
  rw [perform_bind, first]

/-! ## Polling -/

section Polling

variable {condition : Action σ Bool} {Misses : Nat → σ → Prop} {Holds : σ → Prop}

/-- Polling a condition that fails exactly `n` more times takes `n + 1` polls. -/
theorem perform_pollUntil
    (miss : ∀ n s, Misses (n + 1) s →
      ∃ after, condition.perform s = (.ok false, after) ∧ Misses n after)
    (hit : ∀ s, Misses 0 s → ∃ after, condition.perform s = (.ok true, after) ∧ Holds after)
    (timeout : DriverError) {n limit : Nat} {s : σ} (start : Misses n s) :
    (n < limit → ∃ after,
      perform (pollUntil timeout condition limit) s = (.ok (), after) ∧ Holds after) ∧
    (limit ≤ n → ∃ after, perform (pollUntil timeout condition limit) s = (.error timeout, after)) := by
  induction limit generalizing n s with
  | zero => exact ⟨fun none => absurd none (Nat.not_lt_zero n), fun _ => ⟨s, rfl⟩⟩
  | succ limit ih =>
    cases n with
    | zero =>
      obtain ⟨after, polled, holds⟩ := hit s start
      refine ⟨fun _ => ⟨after, ?_, holds⟩, fun few => absurd few (Nat.not_succ_le_zero limit)⟩
      exact perform_bind_of_ok polled _
    | succ n =>
      obtain ⟨after, polled, fewer⟩ := miss n s start
      have next : perform (pollUntil timeout condition (limit + 1)) s =
          perform (pollUntil timeout condition limit) after := perform_bind_of_ok polled _
      rw [next]
      obtain ⟨enough, short⟩ := ih fewer
      exact ⟨fun more => enough (Nat.lt_of_succ_lt_succ more),
        fun few => short (Nat.le_of_succ_le_succ few)⟩

end Polling

end InstrumentBus.Action
