import Mathlib.Order.Basic

/-!
# Sequences of checks

What a chain of fallible steps returned says about each of them.

* `bind_eq_ok`: a chain succeeds exactly when its steps do.
* `guard_eq_ok`: and a check exactly when its condition does not hold.
-/
namespace CodingAgent.Fallible

variable {ε α β : Type}

theorem bind_eq_ok {x : Except ε α} {f : α → Except ε β} {b : β} :
    (x >>= f) = .ok b ↔ ∃ a, x = .ok a ∧ f a = .ok b := by
  cases x with
  | error e =>
    constructor
    · intro h
      cases h
    · rintro ⟨a, ha, -⟩
      cases ha
  | ok a =>
    constructor
    · intro h
      exact ⟨a, rfl, h⟩
    · rintro ⟨a', ha, h⟩
      cases ha
      exact h

theorem guard_eq_ok {c : Prop} [Decidable c] {e : ε} {x : Except ε α} {a : α} :
    (if c then .error e else x) = .ok a ↔ ¬c ∧ x = .ok a := by
  by_cases h : c
  · rw [if_pos h]
    exact iff_of_false (by simp) fun hne => hne.1 h
  · rw [if_neg h]
    exact (and_iff_right h).symm

end CodingAgent.Fallible
