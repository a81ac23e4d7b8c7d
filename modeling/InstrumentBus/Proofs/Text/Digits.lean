import InstrumentBus.Power

/-!
# Digits of natural numbers

The digits that are written for a natural number have no zero in front, unless the number is zero.
-/

namespace InstrumentBus

variable {n : Nat}

/-- A number that is not zero is written without a leading zero. -/
theorem head?_toDigits_ne (positive : 0 < n) : (Nat.toDigits 10 n).head? ≠ some '0' := by
  induction n using Nat.strongRecOn with
  | ind n ih =>
    rcases Nat.lt_or_ge n 10 with single | several
    · rw [Nat.toDigits_of_lt_base single, List.head?_cons, ne_eq, Option.some.injEq]
      have nonzero : ∀ d < 10, 0 < d → d.digitChar ≠ '0' := by decide
      exact nonzero n single positive
    · have front := ih (n / 10) (by omega) (by omega)
      rw [Nat.toDigits_of_base_le (by decide) several]
      cases digits : Nat.toDigits 10 (n / 10) with
      | nil => exact absurd digits Nat.toDigits_ne_nil
      | cons c more =>
        rw [digits] at front
        exact front

end InstrumentBus
