import Mathlib.Order.Lattice
import Mathlib.Order.Defs.LinearOrder

/-!
# Keeping the newest of what was received

A register that replaces what it holds by what has a larger key, whatever the
order in which things arrive and however often.

* `Newest.keep`, `Newest.replace`: one arrival.
* `Newest.eq_of_same`: two registers that received the same things agree, where
  keys identify things.
-/
namespace CodingAgent

variable {α K : Type} [LinearOrder K] {key : α → K} {received : List α} {x : α}

/-- `x` was received and nothing received has a larger key. -/
structure Newest (key : α → K) (received : List α) (x : α) : Prop where
  mem : x ∈ received
  le : ∀ r ∈ received, key r ≤ key x

theorem Newest.single (key : α → K) (x : α) : Newest key [x] x where
  mem := List.mem_singleton_self x
  le r hr := by rw [List.mem_singleton.mp hr]

/-- What is not newer is dropped. -/
theorem Newest.keep (h : Newest key received x) {r : α} (hle : key r ≤ key x) :
    Newest key (received ++ [r]) x where
  mem := List.mem_append_left _ h.mem
  le a ha := by
    rcases List.mem_append.mp ha with ha | ha
    · exact h.le a ha
    · rw [List.mem_singleton.mp ha]
      exact hle

/-- What is not older replaces. -/
theorem Newest.replace (h : Newest key received x) {r : α} (hle : key x ≤ key r) :
    Newest key (received ++ [r]) r where
  mem := List.mem_append_right _ (List.mem_singleton_self r)
  le a ha := by
    rcases List.mem_append.mp ha with ha | ha
    · exact le_trans (h.le a ha) hle
    · rw [List.mem_singleton.mp ha]

/-- The newest thing depends on what was received only. -/
theorem Newest.eq_of_same {received' : List α} {y : α} (h : Newest key received x)
    (h' : Newest key received' y) (hsame : ∀ a, a ∈ received ↔ a ∈ received')
    (hkey : ∀ a ∈ received, ∀ b ∈ received, key a = key b → a = b) : x = y := by
  have hy : y ∈ received := (hsame y).mpr h'.mem
  exact hkey x h.mem y hy (le_antisymm (h'.le x ((hsame x).mp h.mem)) (h.le y hy))

end CodingAgent
