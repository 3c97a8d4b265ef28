import Mathlib.Data.List.Forall2

/-!
# Computations that leave a trace

A computation over a state also says what it did, in order. Sequencing two of
them puts their traces one after the other.

* `forEach_trace`: the trace of a loop is the traces of its turns.
-/
namespace CodingAgent

/-- What a computation returned, what it did, and the state after it. -/
structure Ran (ε σ α : Type) where
  value : α
  trace : List ε
  state : σ

def Traced (ε σ α : Type) : Type := σ → Ran ε σ α

namespace Traced
variable {ε σ α β : Type}

instance : Monad (Traced ε σ) where
  pure a := fun s => { value := a, trace := [], state := s }
  bind x f := fun s =>
    let first := x s
    let second := f first.value first.state
    { value := second.value, trace := first.trace ++ second.trace, state := second.state }

theorem bind_apply (x : Traced ε σ α) (f : α → Traced ε σ β) (s : σ) :
    (x >>= f) s =
      { value := (f (x s).value (x s).state).value
        trace := (x s).trace ++ (f (x s).value (x s).state).trace
        state := (f (x s).value (x s).state).state } := rfl

theorem pure_apply (a : α) (s : σ) :
    (pure a : Traced ε σ α) s = { value := a, trace := [], state := s } := rfl

/-- A turn for each item, in order. -/
def forEach (turn : α → Traced ε σ Unit) : List α → Traced ε σ Unit
  | [] => pure ()
  | a :: rest => do
    turn a
    forEach turn rest

/-- **The trace of a loop is the traces of its turns.** -/
theorem forEach_trace (turn : α → Traced ε σ Unit) (items : List α) (s : σ) :
    ∃ segments : List (List ε),
      List.Forall₂ (fun a segment => ∃ s, (turn a s).trace = segment) items segments ∧
        (forEach turn items s).trace = segments.flatten := by
  induction items generalizing s with
  | nil => exact ⟨[], .nil, rfl⟩
  | cons a rest ih =>
    obtain ⟨segments, hturns, htrace⟩ := ih (turn a s).state
    refine ⟨(turn a s).trace :: segments, .cons ⟨s, rfl⟩ hturns, ?_⟩
    rw [forEach, bind_apply, List.flatten_cons, ← htrace]

end Traced
end CodingAgent
