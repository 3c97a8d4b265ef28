import Mathlib.Algebra.Order.Ring.Int
import Mathlib.Data.List.Basic

/-!
# Labelled transition systems, runs and inductive invariants

The part every protocol model of this development shares: an initial-state
predicate, a labelled step relation, finite runs, reachability, and the
induction rules used on them.

* `Inductive.reachable`: an inductive predicate holds of every reachable state.
* `Inductive.strengthen`: a predicate that is preserved wherever an already
  proved invariant holds (before and after the step) is an invariant too.
* `LTS.restrict`: the runs all of whose steps meet a condition; what is
  inductive for the whole system is inductive for them
  (`Inductive.restrict`).
* `guard`, `reachable_of_exec_guard`: such runs can be computed.
* `Run.mono`: a reflexive and transitive relation that every step respects
  relates the two ends of a run.
-/
namespace CodingAgent

structure LTS (S L : Type) where
  init : S → Prop
  step : S → L → S → Prop

namespace LTS

variable {S L : Type} {M : LTS S L}

/-- A deterministic system: `none` is a label that is not enabled. -/
def ofFn (init : S → Prop) (next : S → L → Option S) : LTS S L where
  init := init
  step s l s' := next s l = some s'

/-- Runs a deterministic system; `none` if some label is not enabled. -/
def exec (next : S → L → Option S) (s : S) : List L → Option S
  | [] => some s
  | l :: ls => (next s l).bind fun s' => exec next s' ls

inductive Run (M : LTS S L) : S → List L → S → Prop
  | nil (s : S) : Run M s [] s
  | cons {s s' s'' : S} {l : L} {ls : List L} :
    M.step s l s' → Run M s' ls s'' → Run M s (l :: ls) s''

def Reachable (M : LTS S L) (s : S) : Prop := ∃ s₀ ls, M.init s₀ ∧ M.Run s₀ ls s

structure Inductive (M : LTS S L) (P : S → Prop) : Prop where
  init : ∀ s, M.init s → P s
  step : ∀ s l s', P s → M.step s l s' → P s'

theorem Run.append {a b c : S} {l₁ l₂ : List L} (h₁ : M.Run a l₁ b) (h₂ : M.Run b l₂ c) :
    M.Run a (l₁ ++ l₂) c := by
  induction h₁ with
  | nil => exact h₂
  | cons hs _ ih => exact .cons hs (ih h₂)

theorem Run.snoc {a b c : S} {ls : List L} {l : L} (h : M.Run a ls b) (hs : M.step b l c) :
    M.Run a (ls ++ [l]) c :=
  h.append (.cons hs (.nil c))

theorem reachable_init {s : S} (h : M.init s) : M.Reachable s := ⟨s, [], h, .nil s⟩

theorem Reachable.step {s s' : S} {l : L} (hr : M.Reachable s) (h : M.step s l s') :
    M.Reachable s' := by
  obtain ⟨s₀, ls, hi, hrun⟩ := hr
  exact ⟨s₀, ls ++ [l], hi, hrun.snoc h⟩

theorem Reachable.run {s s' : S} {ls : List L} (hr : M.Reachable s) (h : M.Run s ls s') :
    M.Reachable s' := by
  obtain ⟨s₀, ls₀, hi, hrun⟩ := hr
  exact ⟨s₀, ls₀ ++ ls, hi, hrun.append h⟩

theorem run_of_exec {init : S → Prop} {next : S → L → Option S} {s s' : S} {ls : List L}
    (h : exec next s ls = some s') : (ofFn init next).Run s ls s' := by
  induction ls generalizing s with
  | nil => cases h; exact .nil _
  | cons l ls ih =>
    obtain ⟨m, hm, h⟩ := Option.bind_eq_some_iff.1 h
    exact .cons hm (ih h)

theorem reachable_of_exec {init : S → Prop} {next : S → L → Option S} {s s' : S} {ls : List L}
    (hi : init s) (h : exec next s ls = some s') : (ofFn init next).Reachable s' :=
  ⟨s, ls, hi, run_of_exec h⟩

theorem Run.preserves {P : S → Prop} (hp : ∀ s l s', P s → M.step s l s' → P s') {s s' : S}
    {ls : List L} (h : M.Run s ls s') : P s → P s' := by
  induction h with
  | nil => exact id
  | cons hs _ ih => exact fun hP => ih (hp _ _ _ hP hs)

/-- What holds of a run and its end: of the empty run, and of every run
prolonged by a step. -/
theorem Run.history {P : List L → S → Prop} {s s' : S} {ls : List L} (h : M.Run s ls s')
    (nil : P [] s) (snoc : ∀ ls s l s', P ls s → M.step s l s' → P (ls ++ [l]) s') :
    P ls s' := by
  have key : ∀ {s ls s'}, M.Run s ls s' → ∀ before, P before s → P (before ++ ls) s' := by
    intro s ls s' h
    induction h with
    | nil => exact fun before hP => by rwa [List.append_nil]
    | cons hs _ ih =>
      intro before hP
      have := ih _ (snoc _ _ _ _ hP hs)
      rwa [List.append_assoc] at this
  exact key h [] nil

theorem Inductive.reachable {P : S → Prop} (hI : M.Inductive P) (s : S) (h : M.Reachable s) :
    P s := by
  obtain ⟨s₀, ls, hi, hrun⟩ := h
  exact hrun.preserves hI.step (hI.init _ hi)

theorem Inductive.strengthen {P Q : S → Prop} (hP : M.Inductive P)
    (init : ∀ s, M.init s → Q s)
    (step : ∀ s l s', P s → P s' → Q s → M.step s l s' → Q s') :
    M.Inductive fun s => P s ∧ Q s where
  init s hi := ⟨hP.init s hi, init s hi⟩
  step s l s' h hs := by
    have hp' := hP.step s l s' h.1 hs
    exact ⟨hp', step s l s' h.1 hp' h.2 hs⟩

/-- The runs whose steps all meet `ok`, a condition on the state before the
step and the label. -/
def restrict (M : LTS S L) (ok : S → L → Prop) : LTS S L where
  init := M.init
  step s l s' := ok s l ∧ M.step s l s'

theorem Run.of_restrict {ok : S → L → Prop} {s s' : S} {ls : List L}
    (h : (M.restrict ok).Run s ls s') : M.Run s ls s' := by
  induction h with
  | nil s => exact .nil s
  | cons hs _ ih => exact .cons hs.2 ih

theorem Reachable.of_restrict {ok : S → L → Prop} {s : S} (h : (M.restrict ok).Reachable s) :
    M.Reachable s := by
  obtain ⟨s₀, ls, hi, hrun⟩ := h
  exact ⟨s₀, ls, hi, hrun.of_restrict⟩

theorem Inductive.restrict {P : S → Prop} (h : M.Inductive P) (ok : S → L → Prop) :
    (M.restrict ok).Inductive P where
  init := h.init
  step s l s' hP hs := h.step s l s' hP hs.2

/-- A deterministic system that stops where `ok` fails. -/
def guard (ok : S → L → Prop) [∀ s l, Decidable (ok s l)] (next : S → L → Option S) (s : S)
    (l : L) : Option S :=
  if ok s l then next s l else none

theorem reachable_of_exec_guard {ok : S → L → Prop} [∀ s l, Decidable (ok s l)] {init : S → Prop}
    {next : S → L → Option S} {s s' : S} {ls : List L} (hi : init s)
    (h : exec (guard ok next) s ls = some s') : ((ofFn init next).restrict ok).Reachable s' := by
  refine ⟨s, ls, hi, (?_ : ((ofFn init next).restrict ok).Run s ls s')⟩
  clear hi
  induction ls generalizing s with
  | nil => cases h; exact .nil _
  | cons l ls ih =>
    obtain ⟨m, hm, h⟩ := Option.bind_eq_some_iff.1 h
    unfold guard at hm
    split at hm
    · rename_i hok
      exact .cons ⟨hok, hm⟩ (ih h)
    · cases hm

theorem Run.mono {R : S → S → Prop} (hrefl : ∀ s, R s s)
    (htrans : ∀ {a b c}, R a b → R b c → R a c) (hstep : ∀ s l s', M.step s l s' → R s s')
    {s s' : S} {ls : List L} (h : M.Run s ls s') : R s s' := by
  induction h with
  | nil s => exact hrefl s
  | cons hs _ ih => exact htrans (hstep _ _ _ hs) ih

end LTS

end CodingAgent
