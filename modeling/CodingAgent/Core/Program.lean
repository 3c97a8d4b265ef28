import Mathlib.Algebra.Order.Ring.Int
import Mathlib.Data.List.Basic
import Mathlib.Logic.Equiv.Defs

/-!
# Programs that ask their environment

A program returns, faults, or asks a question and goes on with the answer;
`none` is the answer of a callee that faulted. What it did is the list of its
questions with their answers, and a program that is given up is one that
takes no further step.

`Ensures` is the weakest precondition of a program: every question it asks is
permitted after the answers so far, and what it returns, or that it faults,
satisfies the postcondition. It is computed along the program, so that a proof
about a program follows its text.

* `ensures_bind`, `ensures_map`, `ensures_recover`, `ensures_call`,
  `ensures_attempt`: the rules of composition.
* `ensures_lift`: a program run among the questions of another.
* `Ensures.extend`: the answers so far are kept.
* `Ensures.asks`, `Ensures.returns`: what it says about runs.
* `play`: runs can be computed; `Reaches`, `Yields`: or put together from the
  runs of the parts.
-/
namespace CodingAgent

inductive Program (Q : Type) (A : Q → Type) (R : Type) where
  | ret (result : R)
  | fault
  | ask (query : Q) (next : Option (A query) → Program Q A R)

/-- A question and its answer. -/
structure Asked (Q : Type) (A : Q → Type) where
  query : Q
  answer : Option (A query)

namespace Program

variable {Q : Type} {A : Q → Type} {R T E : Type}

def bind : Program Q A R → (R → Program Q A T) → Program Q A T
  | .ret result, f => f result
  | .fault, _ => .fault
  | .ask query next, f => .ask query fun answer => (next answer).bind f

instance : Monad (Program Q A) where
  pure := .ret
  bind := bind

/-- A question whose callee may fault, and the program with it. -/
def call (query : Q) : Program Q A (A query) :=
  .ask query fun
    | some answer => .ret answer
    | none => .fault

/-- `handler` runs where the program faults. -/
def recover : Program Q A R → Program Q A R → Program Q A R
  | .ret result, _ => .ret result
  | .fault, handler => handler
  | .ask query next, handler => .ask query fun answer => (next answer).recover handler

/-- The program after these questions and answers. -/
inductive Steps : Program Q A R → List (Asked Q A) → Program Q A R → Prop
  | nil (p : Program Q A R) : Steps p [] p
  | ask {query : Q} {next : Option (A query) → Program Q A R} (answer : Option (A query))
    {rest : List (Asked Q A)} {p : Program Q A R} :
    Steps (next answer) rest p → Steps (.ask query next) (⟨query, answer⟩ :: rest) p

/-- After these questions and answers the program asks this one, whether or
not it is answered. -/
def Asks (p : Program Q A R) (past : List (Asked Q A)) (query : Q) : Prop :=
  ∃ next, Steps p past (.ask query next)

def Returns (p : Program Q A R) (past : List (Asked Q A)) (result : R) : Prop :=
  Steps p past (.ret result)

/-- What a program must meet: the questions it may ask after others, what it
may return and when it may fault. -/
structure Contract (Q : Type) (A : Q → Type) (R : Type) where
  permitted : List (Asked Q A) → Q → Prop
  returned : List (Asked Q A) → R → Prop
  faulted : List (Asked Q A) → Prop

/-- The program meets the contract when it starts after `past`. -/
def Ensures (c : Contract Q A R) : Program Q A R → List (Asked Q A) → Prop
  | .ret result, past => c.returned past result
  | .fault, past => c.faulted past
  | .ask query next, past =>
    c.permitted past query ∧ ∀ answer, Ensures c (next answer) (past ++ [⟨query, answer⟩])

/-! ## Composition -/

variable {c : Contract Q A R} {past : List (Asked Q A)}

@[simp] theorem ensures_pure (result : R) :
    Ensures c (pure result) past ↔ c.returned past result := Iff.rfl

@[simp] theorem ensures_call (query : Q) (c : Contract Q A (A query)) :
    Ensures c (call query) past ↔ c.permitted past query ∧
      (∀ answer, c.returned (past ++ [⟨query, some answer⟩]) answer) ∧
      c.faulted (past ++ [⟨query, none⟩]) := by
  constructor
  · intro h
    exact ⟨h.1, fun answer => h.2 (some answer), h.2 none⟩
  · intro h
    refine ⟨h.1, fun answer => ?_⟩
    cases answer with
    | none => exact h.2.2
    | some answer => exact h.2.1 answer

@[simp] theorem ensures_bind {c : Contract Q A T} (p : Program Q A R) (f : R → Program Q A T) :
    Ensures c (p >>= f) past ↔
      Ensures ⟨c.permitted, fun past result => Ensures c (f result) past, c.faulted⟩ p past := by
  show Ensures c (p.bind f) past ↔ _
  induction p generalizing past with
  | ret result => exact Iff.rfl
  | fault => exact Iff.rfl
  | ask query next ih =>
    exact and_congr Iff.rfl (forall_congr' fun answer => ih answer)

@[simp] theorem ensures_map {c : Contract Q A T} (p : Program Q A R) (f : R → T) :
    Ensures c (f <$> p) past ↔
      Ensures ⟨c.permitted, fun past result => c.returned past (f result), c.faulted⟩ p past :=
  ensures_bind p fun result => pure (f result)

@[simp] theorem ensures_recover (p handler : Program Q A R) :
    Ensures c (p.recover handler) past ↔
      Ensures ⟨c.permitted, c.returned, fun past => Ensures c handler past⟩ p past := by
  induction p generalizing past with
  | ret result => exact Iff.rfl
  | fault => exact Iff.rfl
  | ask query next ih =>
    exact and_congr Iff.rfl (forall_congr' fun answer => ih answer)

theorem Ensures.mono {c d : Contract Q A R} {p : Program Q A R} (h : Ensures c p past)
    (hpermitted : ∀ past query, c.permitted past query → d.permitted past query)
    (hreturned : ∀ past result, c.returned past result → d.returned past result)
    (hfaulted : ∀ past, c.faulted past → d.faulted past) : Ensures d p past := by
  induction p generalizing past with
  | ret result => exact hreturned _ _ h
  | fault => exact hfaulted _ h
  | ask query next ih => exact ⟨hpermitted _ _ h.1, fun answer => ih answer (h.2 answer)⟩

/-- What was asked before stays. -/
theorem Ensures.extend {p : Program Q A R} (h : Ensures c p past) :
    Ensures ⟨c.permitted, fun later result => past <+: later ∧ c.returned later result,
      fun later => past <+: later ∧ c.faulted later⟩ p past := by
  have key : ∀ later, past <+: later → Ensures c p later →
      Ensures ⟨c.permitted, fun later result => past <+: later ∧ c.returned later result,
        fun later => past <+: later ∧ c.faulted later⟩ p later := by
    clear h
    induction p with
    | ret result => exact fun later hle h => ⟨hle, h⟩
    | fault => exact fun later hle h => ⟨hle, h⟩
    | ask query next ih =>
      exact fun later hle h =>
        ⟨h.1, fun answer => ih answer _ (hle.trans (List.prefix_append later _)) (h.2 answer)⟩
  exact key past List.prefix_rfl h

/-- What was asked before stays, whatever the program does. -/
theorem ensures_extends (p : Program Q A R) (past : List (Asked Q A)) :
    Ensures ⟨fun _ _ => True, fun later _ => past <+: later, fun later => past <+: later⟩ p past := by
  have htrue : ∀ past, Ensures ⟨fun _ _ => True, fun _ _ => True, fun _ => True⟩ p past := by
    induction p with
    | ret result => exact fun _ => trivial
    | fault => exact fun _ => trivial
    | ask query next ih => exact fun _ => ⟨trivial, fun answer => ih answer _⟩
  exact (htrue past).extend.mono (fun _ _ => id) (fun _ _ h => h.1) fun _ h => h.1

/-! ## Programs that may return an error -/

/-- A program that returns a result or throws. -/
abbrev Attempt (Q : Type) (A : Q → Type) (E R : Type) : Type := ExceptT E (Program Q A) R

/-- The contract of the first of two attempts. -/
def Contract.andThen (c : Contract Q A (Except E T)) (f : R → Attempt Q A E T) :
    Contract Q A (Except E R) where
  permitted := c.permitted
  returned past result :=
    match result with
    | .ok a => Ensures c (f a).run past
    | .error e => c.returned past (.error e)
  faulted := c.faulted

section
variable {c : Contract Q A (Except E T)} {f : R → Attempt Q A E T}

@[simp] theorem andThen_ok (a : R) :
    (c.andThen f).returned past (.ok a) ↔ Ensures c (f a).run past := Iff.rfl

@[simp] theorem andThen_error (e : E) :
    (c.andThen f).returned past (.error e) ↔ c.returned past (.error e) := Iff.rfl

@[simp] theorem ensures_attempt (x : Attempt Q A E R) :
    Ensures c (x >>= f).run past ↔ Ensures (c.andThen f) x.run past := by
  rw [ExceptT.run_bind, ensures_bind]
  refine iff_of_eq (congrArg (fun c => Ensures c x.run past) ?_)
  unfold Contract.andThen
  congr
  funext past result
  cases result <;> rfl

@[simp] theorem ensures_run_pure (a : T) :
    Ensures c (pure a : Attempt Q A E T).run past ↔ c.returned past (.ok a) := Iff.rfl

@[simp] theorem ensures_run_throw (e : E) :
    Ensures c (throw e : Attempt Q A E T).run past ↔ c.returned past (.error e) := Iff.rfl

end

/-! ## Programs inside others -/

/-- The questions of one environment among those of another. -/
structure Embedding (Q : Type) (A : Q → Type) (Q' : Type) (A' : Q' → Type) where
  query : Q → Q'
  answer : ∀ q, A' (query q) ≃ A q

section
variable {Q' : Type} {A' : Q' → Type} (e : Embedding Q A Q' A')

def Embedding.asked (c : Asked Q A) : Asked Q' A' :=
  ⟨e.query c.query, c.answer.map (e.answer c.query).symm⟩

def lift : Program Q A R → Program Q' A' R
  | .ret result => .ret result
  | .fault => .fault
  | .ask query next => .ask (e.query query) fun answer => (next (answer.map (e.answer query))).lift

/-- The contract of a program inside one that has asked `past`. -/
def Contract.along (c : Contract Q' A' R) (past : List (Asked Q' A')) : Contract Q A R where
  permitted rest query := c.permitted (past ++ rest.map e.asked) (e.query query)
  returned rest result := c.returned (past ++ rest.map e.asked) result
  faulted rest := c.faulted (past ++ rest.map e.asked)

theorem ensures_lift {c : Contract Q' A' R} {past : List (Asked Q' A')} (p : Program Q A R) :
    Ensures c (p.lift e) past ↔ Ensures (c.along e past) p [] := by
  have key : ∀ rest, Ensures c (p.lift e) (past ++ rest.map e.asked) ↔
      Ensures (c.along e past) p rest := by
    induction p with
    | ret result => exact fun rest => Iff.rfl
    | fault => exact fun rest => Iff.rfl
    | ask query next ih =>
      intro rest
      refine and_congr Iff.rfl ?_
      have hask : ∀ answer : Option (A query),
          Ensures c ((next answer).lift e) (past ++ rest.map e.asked ++
            [⟨e.query query, answer.map (e.answer query).symm⟩]) ↔
          Ensures (c.along e past) (next answer) (rest ++ [⟨query, answer⟩]) := by
        intro answer
        rw [← ih answer, List.map_append, List.append_assoc]
        rfl
      constructor
      · intro h answer
        refine (hask answer).1 ?_
        have := h (answer.map (e.answer query).symm)
        simp only [Option.map_map, Equiv.self_comp_symm, Option.map_id, id] at this
        exact this
      · intro h answer
        have := (hask (answer.map (e.answer query))).2 (h _)
        simp only [Option.map_map, Equiv.symm_comp_self, Option.map_id, id] at this
        exact this
  simpa using key []

end

/-! ## Runs -/

theorem Ensures.steps {p q : Program Q A R} {rest : List (Asked Q A)} (h : Ensures c p past)
    (hs : Steps p rest q) : Ensures c q (past ++ rest) := by
  induction hs generalizing past with
  | nil p => rwa [List.append_nil]
  | @ask query next answer rest q _ ih =>
    have := ih (h.2 answer)
    rwa [List.append_assoc] at this

/-- Every question is permitted. -/
theorem Ensures.asks {p : Program Q A R} {rest : List (Asked Q A)} {query : Q}
    (h : Ensures c p []) (hasks : p.Asks rest query) : c.permitted rest query := by
  obtain ⟨next, hs⟩ := hasks
  exact (h.steps hs).1

theorem Ensures.returns {p : Program Q A R} {rest : List (Asked Q A)} {result : R}
    (h : Ensures c p []) (hs : p.Returns rest result) : c.returned rest result :=
  h.steps hs

/-- A run against an environment that answers each question the same way. -/
def play (answer : (q : Q) → Option (A q)) : Program Q A R → List (Asked Q A) × Option R
  | .ret result => ([], some result)
  | .fault => ([], none)
  | .ask query next =>
    let rest := (next (answer query)).play answer
    (⟨query, answer query⟩ :: rest.1, rest.2)

/-- The program comes to ask this against that environment. -/
def Reaches (answer : (q : Q) → Option (A q)) (p : Program Q A R) (query : Q) : Prop :=
  ∃ past, (∀ b ∈ past, b.answer = answer b.query) ∧ p.Asks past query

/-- The program returns this against that environment. -/
def Yields (answer : (q : Q) → Option (A q)) (p : Program Q A R) (result : R) : Prop :=
  ∃ past, (∀ b ∈ past, b.answer = answer b.query) ∧ p.Returns past result

section
variable {answer : (q : Q) → Option (A q)} {p : Program Q A R} {query : Q}

theorem Steps.bind {past : List (Asked Q A)} {q : Program Q A R} (h : Steps p past q)
    (f : R → Program Q A T) : Steps (p >>= f) past (q >>= f) := by
  induction h with
  | nil p => exact .nil _
  | ask answer _ ih => exact .ask answer ih

theorem Steps.trans {past rest : List (Asked Q A)} {q r : Program Q A R} (h : Steps p past q)
    (h' : Steps q rest r) : Steps p (past ++ rest) r := by
  induction h with
  | nil p => exact h'
  | ask answer _ ih => exact .ask answer (ih h')

theorem Steps.recover {past : List (Asked Q A)} {q : Program Q A R} (h : Steps p past q)
    (handler : Program Q A R) : Steps (p.recover handler) past (q.recover handler) := by
  induction h with
  | nil p => exact .nil _
  | ask answer _ ih => exact .ask answer ih

theorem steps_call (query : Q) (a : A query) :
    Steps (call query) [(⟨query, some a⟩ : Asked Q A)] (pure a) := .ask (some a) (.nil _)

theorem reaches_call (query : Q) : Reaches answer (call query : Program Q A (A query)) query :=
  ⟨[], by simp, _, .nil _⟩

theorem yields_call {query : Q} {a : A query} (h : answer query = some a) :
    Yields answer (call query) a := by
  refine ⟨[⟨query, some a⟩], ?_, steps_call query a⟩
  simp [h]

theorem yields_pure (a : R) : Yields answer (pure a : Program Q A R) a := ⟨[], by simp, .nil _⟩

/-- An environment that answers each question the same way lets a program
return one result. -/
theorem Yields.play {a : R} (h : Yields answer p a) : (p.play answer).2 = some a := by
  obtain ⟨past, hpast, hs⟩ := h
  induction p generalizing past with
  | ret result =>
    cases hs
    rfl
  | fault => cases hs
  | ask query next ih =>
    cases hs with
    | @ask _ _ given rest _ hs =>
      have hgiven : given = answer query := hpast ⟨query, given⟩ List.mem_cons_self
      subst hgiven
      exact ih _ rest (fun b hb => hpast b (List.mem_cons_of_mem _ hb)) hs

theorem reaches_of_first {f : R → Program Q A T} (h : Reaches answer p query) :
    Reaches answer (p >>= f) query := by
  obtain ⟨past, hpast, next, hs⟩ := h
  exact ⟨past, hpast, _, hs.bind f⟩

theorem Yields.reaches {f : R → Program Q A T} {a : R} (hp : Yields answer p a)
    (hf : Reaches answer (f a) query) : Reaches answer (p >>= f) query := by
  obtain ⟨past, hpast, hs⟩ := hp
  obtain ⟨rest, hrest, next, hs'⟩ := hf
  refine ⟨past ++ rest, fun b hb => (List.mem_append.1 hb).elim (hpast b) (hrest b), next, ?_⟩
  exact (hs.bind f).trans hs'

theorem Yields.bind {f : R → Program Q A T} {a : R} {b : T} (hp : Yields answer p a)
    (hf : Yields answer (f a) b) : Yields answer (p >>= f) b := by
  obtain ⟨past, hpast, hs⟩ := hp
  obtain ⟨rest, hrest, hs'⟩ := hf
  refine ⟨past ++ rest, fun c hc => (List.mem_append.1 hc).elim (hpast c) (hrest c), ?_⟩
  exact (hs.bind f).trans hs'

theorem reaches_recover {handler : Program Q A R} (h : Reaches answer p query) :
    Reaches answer (p.recover handler) query := by
  obtain ⟨past, hpast, next, hs⟩ := h
  exact ⟨past, hpast, _, hs.recover handler⟩

theorem Yields.reaches_attempt {x : Attempt Q A E R} {f : R → Attempt Q A E T} {a : R}
    (hx : Yields answer x.run (.ok a)) (hf : Reaches answer (f a).run query) :
    Reaches answer (x >>= f).run query := by
  rw [ExceptT.run_bind]
  exact Yields.reaches hx hf

theorem reaches_attempt {x : Attempt Q A E R} {f : R → Attempt Q A E T}
    (h : Reaches answer x.run query) : Reaches answer (x >>= f).run query := by
  rw [ExceptT.run_bind]
  exact reaches_of_first h

theorem Steps.lift {Q' : Type} {A' : Q' → Type} (e : Embedding Q A Q' A')
    {past : List (Asked Q A)} {q : Program Q A R} (h : Steps p past q) :
    Steps (p.lift e) (past.map e.asked) (q.lift e) := by
  induction h with
  | nil p => exact .nil _
  | @ask query next answer rest q _ ih =>
    refine .ask _ ?_
    have hback : (answer.map (e.answer query).symm).map (e.answer query) = answer := by
      rw [Option.map_map, Equiv.self_comp_symm, Option.map_id, id]
    rw [hback]
    exact ih

/-- A question of a program inside another. -/
theorem reaches_lift {Q' : Type} {A' : Q' → Type} {e : Embedding Q A Q' A'}
    {answer' : (q : Q') → Option (A' q)}
    (h : Reaches (fun q => (answer' (e.query q)).map (e.answer q)) p query) :
    Reaches answer' (p.lift e) (e.query query) := by
  obtain ⟨past, hpast, next, hs⟩ := h
  refine ⟨past.map e.asked, fun b hb => ?_, _, hs.lift e⟩
  obtain ⟨c, hc, rfl⟩ := List.mem_map.1 hb
  show c.answer.map _ = _
  rw [hpast c hc, Option.map_map, Equiv.symm_comp_self, Option.map_id, id]
  rfl

end

/-- Every question of such a run is asked. -/
theorem asks_of_play {answer : (q : Q) → Option (A q)} {p : Program Q A R} {c : Asked Q A}
    (h : c ∈ (p.play answer).1) : Reaches answer p c.query := by
  induction p with
  | ret result => cases h
  | fault => cases h
  | ask query next ih =>
    rcases List.mem_cons.1 h with rfl | h
    · exact ⟨[], by simp, next, .nil _⟩
    · obtain ⟨past, hpast, next', hs⟩ := ih (answer query) h
      refine ⟨⟨query, answer query⟩ :: past, fun b hb => ?_, next', .ask _ hs⟩
      rcases List.mem_cons.1 hb with rfl | hb
      · rfl
      · exact hpast b hb

theorem answer_of_play {answer : (q : Q) → Option (A q)} {p : Program Q A R} {c : Asked Q A}
    (h : c ∈ (p.play answer).1) : c.answer = answer c.query := by
  induction p with
  | ret result => cases h
  | fault => cases h
  | ask query next ih =>
    rcases List.mem_cons.1 h with rfl | h
    · rfl
    · exact ih (answer query) h

theorem returns_of_play {answer : (q : Q) → Option (A q)} {p : Program Q A R} {result : R}
    (h : (p.play answer).2 = some result) : p.Returns (p.play answer).1 result := by
  induction p with
  | ret r =>
    cases h
    exact .nil _
  | fault => cases h
  | ask query next ih => exact .ask _ (ih (answer query) h)

end Program
end CodingAgent
