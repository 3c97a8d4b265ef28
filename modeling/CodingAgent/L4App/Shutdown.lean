import CodingAgent.Core.Lts
import CodingAgent.L4App.Primary
import Mathlib.Data.List.Infix

/-!
# The shutdown coordinator (`coding-agent-app/src/shutdown.rs:172-411`)

Any number of calls of `shutdown` and `force_cleanup`, in any order, and one
step of the procedure at a time: of `RuntimeShutdown::shutdown`, of
`emergency_shutdown` after a panic of it, of the last resort after a panic of
that, or of `force_cleanup`. A wait ends with its result or its deadline. A
panic may come at every step but the removal; `begin_quiescing` and
`freeze_and_cancel` are two steps each, `quiesce_and_interrupt` is the message
and its answer. The clone of the lease in the server task is
`SingleInstance`'s.

* `inv_inductive`: what the procedure has done by each of its steps.
* `removal_once`: the counts of removals, whatever panics.
* `shutdown_once`: one procedure, one outcome, one removal, and what comes
  before it.
-/
namespace CodingAgent.L4.App.Shutdown

/-! ## The procedures -/

inductive Step where
  /-- `begin_quiescing`, up to `closed` -/
  | closeGate
  /-- there, the service state -/
  | announce
  | waitForIdle
  /-- `quiesce_and_interrupt`, the message -/
  | sendQuiesce
  | awaitQuiesce
  /-- `freeze_and_cancel`, up to `frozen` -/
  | freeze
  /-- there, the cancellation -/
  | cancelManager
  | cancelAll
  | waitForRunners
  | flush
  | spawnMarker
  | spawnMessage
  /-- `stop_http` with a deadline that has passed -/
  | stopHttpNow
  | closeDispatcher
  /-- `checkpoint_and_close` -/
  | checkpoint
  | closePool
  | stopHttp
  | awaitMarker
  | awaitMessage
  /-- `remove_descriptor_and_release_lock` -/
  | removeAndRelease
  | report
  deriving DecidableEq, Repr

inductive Path where
  | shutdown
  | emergency
  | force
  deriving DecidableEq, Repr

/-- mirrors crates/coding-agent-app/src/shutdown.rs:220-239,243-411 -/
def Path.order : Path → List Step
  | .shutdown =>
    [.closeGate, .announce, .waitForIdle, .sendQuiesce, .awaitQuiesce, .freeze, .cancelManager,
      .cancelAll, .waitForRunners, .flush, .spawnMarker, .spawnMessage, .stopHttpNow,
      .closeDispatcher, .checkpoint, .closePool, .stopHttp, .awaitMarker, .awaitMessage,
      .removeAndRelease, .report]
  | .emergency =>
    [.report, .closeGate, .announce, .freeze, .cancelManager, .spawnMarker, .spawnMessage,
      .stopHttpNow, .closeDispatcher, .closePool, .awaitMarker, .awaitMessage, .removeAndRelease]
  | .force => [.closeGate, .announce, .freeze, .cancelManager, .removeAndRelease]

namespace Step

/-- The branches on the outcome; `checkpointed` is `checkpoint_closed`. -/
def applies (outcome : ShutdownOutcome) (checkpointed : Bool) : Step → Bool
  | sendQuiesce | awaitQuiesce | waitForRunners | flush | checkpoint => outcome = .clean
  | freeze | cancelManager | spawnMarker | spawnMessage | stopHttpNow | awaitMarker
  | awaitMessage | report => outcome = .degraded
  | closePool => outcome = .degraded ∨ checkpointed = false
  | _ => true

/-- The outcome after a step: `waitForIdle` and `awaitQuiesce` end it at the
deadline, and only `Durable` is clean. -/
def outcome (step : Step) (ok : Bool) (before : ShutdownOutcome) : ShutdownOutcome :=
  match step, ok with
  | waitForIdle, false | awaitQuiesce, false => .degraded
  | _, _ => before

def checkpointed (step : Step) (ok before : Bool) : Bool :=
  match step with
  | checkpoint => ok
  | _ => before

end Step

/-- Where the procedure is, with the steps it has left, the current one first. -/
inductive Procedure where
  | absent
  | running (path : Path) (rest : List Step) (outcome : ShutdownOutcome) (checkpointed : Bool)
  /-- `emergency_shutdown` panicked with these steps left -/
  | lastResort (rest : List Step)
  /-- before `send_replace` -/
  | finished (outcome : ShutdownOutcome)
  | done
  deriving DecidableEq, Repr

/-- A call of `shutdown`. -/
inductive Caller where
  | subscribed
  | waiting
  | returned (outcome : ShutdownOutcome)
  deriving DecidableEq, Repr

structure State where
  started : Bool
  outcome : Option ShutdownOutcome
  callers : List Caller
  procedure : Procedure
  gateClosed : Bool
  /-- of `TaskManagerShutdownControl`; a manager that quiesces sets it too -/
  frozen : Bool
  quiesceSent : Bool
  /-- the two fields of `PrimaryRuntimeResources` -/
  server : Bool
  lock : Bool
  /-- the procedures so far -/
  procedures : Nat
  /-- the calls of `remove_descriptor` -/
  removals : Nat
  /-- the drops of the lock -/
  releases : Nat
  /-- the normal path has panicked -/
  panicked : Bool
  deriving DecidableEq, Repr

def State.new : State where
  started := false
  outcome := none
  callers := []
  procedure := .absent
  gateClosed := false
  frozen := false
  quiesceSent := false
  server := true
  lock := true
  procedures := 0
  removals := 0
  releases := 0
  panicked := false

inductive Label where
  /-- a call of `shutdown` subscribes -/
  | subscribe
  /-- its `compare_exchange` -/
  | compareExchange (caller : Nat)
  /-- it looks at the outcome and finds one -/
  | observe (caller : Nat)
  /-- `force_cleanup`, up to its `compare_exchange` -/
  | forceCleanup
  /-- a step of the procedure, and whether it succeeds in time -/
  | advance (ok : Bool)
  | panic
  /-- the manager receives the message and freezes itself -/
  | receiveQuiesce
  /-- `send_replace` -/
  | send
  /-- the cleanup is dropped -/
  | drop
  deriving DecidableEq, Repr

namespace State
variable (s : State)

/-- mirrors crates/coding-agent-app/src/single_instance.rs:1360-1375 -/
def forceCleanup : State :=
  if s.lock then
    { s with
      lock := false, server := false, removals := s.removals + 1, releases := s.releases + 1 }
  else s

def effect : Step → State
  | .closeGate => { s with gateClosed := true }
  | .sendQuiesce => { s with quiesceSent := true }
  | .freeze => { s with frozen := true }
  | .stopHttpNow | .stopHttp => { s with server := false }
  | .removeAndRelease => s.forceCleanup
  | _ => s

/-- The procedure that a successful `compare_exchange` starts. -/
def start (path : Path) (outcome : ShutdownOutcome) : State :=
  { s with
    started := true
    procedure := .running path path.order outcome false
    procedures := s.procedures + 1 }

end State

/-- The steps that are left after a step. -/
def following (rest : List Step) (outcome : ShutdownOutcome) (checkpointed : Bool) : List Step :=
  rest.dropWhile fun step => !step.applies outcome checkpointed

/-- Where the procedure is with these steps left. -/
def Procedure.goOn (path : Path) (rest : List Step) (outcome : ShutdownOutcome)
    (checkpointed : Bool) : Procedure :=
  match rest with
  | [] => .finished outcome
  | _ :: _ => .running path rest outcome checkpointed

/-- mirrors crates/coding-agent-app/src/shutdown.rs:172-239 -/
def next (s : State) : Label → Option State
  | .subscribe => some { s with callers := s.callers ++ [.subscribed] }
  | .compareExchange caller =>
    if s.callers[caller]? = some .subscribed then
      let s := { s with callers := s.callers.set caller .waiting }
      some (if s.started then s else s.start .shutdown .clean)
    else none
  | .observe caller =>
    if s.callers[caller]? = some .waiting then
      s.outcome.map fun outcome => { s with callers := s.callers.set caller (.returned outcome) }
    else none
  | .forceCleanup => some (if s.started then s else s.start .force .degraded)
  | .advance ok =>
    match s.procedure with
    | .running path (step :: rest) outcome checkpointed =>
      -- the answer is `Durable` only where the manager has frozen itself
      if step = .awaitQuiesce ∧ ok ∧ ¬s.frozen then none
      else
        let outcome := step.outcome ok outcome
        let checkpointed := step.checkpointed ok checkpointed
        some { s.effect step with
          procedure := .goOn path (following rest outcome checkpointed) outcome checkpointed }
    | .lastResort _ => some { s.forceCleanup with procedure := .finished .degraded }
    | _ => none
  | .panic =>
    match s.procedure with
    | .running _ (.removeAndRelease :: _) _ _ => none
    | .running .shutdown _ _ _ =>
      some { s with
        procedure := .running .emergency (Path.order .emergency) .degraded false
        panicked := true }
    | .running .emergency rest _ _ => some { s with procedure := .lastResort rest }
    | .running .force _ _ _ => some { s with procedure := .finished .degraded }
    | _ => none
  | .receiveQuiesce =>
    if s.quiesceSent ∧ ¬s.frozen then some { s with frozen := true } else none
  | .send =>
    match s.procedure with
    | .finished outcome => some { s with outcome := some outcome, procedure := .done }
    | _ => none
  | .drop => if s.procedure = .done then some s.forceCleanup else none

def coordinator : LTS State Label := .ofFn (· = .new) next

/-! ## What the steps have done -/

/-- The step after which the manager is frozen or quiesced. -/
def settles : ShutdownOutcome → Step
  | .clean => .awaitQuiesce
  | .degraded => .freeze

section
variable {path : Path} {rest : List Step} {step : Step} {outcome : ShutdownOutcome}
  {checkpointed : Bool}

/-- What comes before the removal is behind a procedure that is at it. -/
theorem order_remove (outcome : ShutdownOutcome) (h : .removeAndRelease :: rest ∈ path.order.tails) :
    .closeGate ∉ Step.removeAndRelease :: rest ∧
      settles outcome ∉ Step.removeAndRelease :: rest := by
  have key : ∀ suffix ∈ path.order.tails, suffix.head? = some .removeAndRelease →
      .closeGate ∉ suffix ∧ settles outcome ∉ suffix := by
    cases path <;> cases outcome <;> decide
  exact key _ h rfl

/-- A normal path that turns degraded freezes the manager later. -/
theorem order_freeze (h : step :: rest ∈ path.order.tails)
    (hstep : step = .waitForIdle ∨ step = .awaitQuiesce) : .freeze ∈ rest := by
  have key : ∀ suffix ∈ path.order.tails,
      suffix.head? = some .waitForIdle ∨ suffix.head? = some .awaitQuiesce →
      .freeze ∈ suffix.tail := by
    cases path <;> decide
  exact key _ h (hstep.imp (congrArg some) (congrArg some))

theorem order_gate (h : rest ∈ path.order.tails) (hfreeze : .freeze ∉ rest) :
    .closeGate ∉ rest := by
  have key : ∀ suffix ∈ path.order.tails, .freeze ∉ suffix → .closeGate ∉ suffix := by
    cases path <;> decide
  exact key _ h hfreeze

theorem following_tails (h : step :: rest ∈ path.order.tails) :
    following rest outcome checkpointed ∈ path.order.tails := by
  rw [List.mem_tails] at h ⊢
  exact (List.dropWhile_suffix _).trans ((List.suffix_cons step rest).trans h)

/-- A step that applies is not skipped. -/
theorem mem_following {step : Step} (h : step.applies outcome checkpointed = true)
    (hmem : step ∈ rest) : step ∈ following rest outcome checkpointed := by
  unfold following
  induction rest with
  | nil => cases hmem
  | cons first rest ih =>
    rw [List.dropWhile_cons]
    split
    · rename_i hskip
      rcases List.mem_cons.1 hmem with rfl | hmem
      · rw [h] at hskip
        cases hskip
      · exact ih hmem
    · exact hmem

end

/-- A procedure with these steps left has done the others. -/
structure Progress (gateClosed frozen lock : Bool) (path : Path) (rest : List Step)
    (outcome : ShutdownOutcome) : Prop where
  tails : rest ∈ path.order.tails
  gate : .closeGate ∉ rest → gateClosed = true
  settled : settles outcome ∉ rest → frozen = true
  removed : .removeAndRelease ∉ rest → lock = false
  degraded : path ≠ .shutdown → outcome = .degraded

section
variable {gateClosed gateClosed' frozen frozen' lock lock' : Bool} {path : Path}
  {rest : List Step} {outcome : ShutdownOutcome}

theorem Progress.mono (h : Progress gateClosed frozen lock path rest outcome)
    (hgate : gateClosed = true → gateClosed' = true) (hfrozen : frozen = true → frozen' = true)
    (hlock : lock = false → lock' = false) :
    Progress gateClosed' frozen' lock' path rest outcome where
  tails := h.tails
  gate hmem := hgate (h.gate hmem)
  settled hmem := hfrozen (h.settled hmem)
  removed hmem := hlock (h.removed hmem)
  degraded := h.degraded

/-- At its first step a procedure has done nothing. -/
theorem Progress.first (hmem : settles outcome ∈ path.order)
    (hdegraded : path ≠ .shutdown → outcome = .degraded) :
    Progress gateClosed frozen lock path path.order outcome where
  tails := (List.mem_tails _ _).2 List.suffix_rfl
  gate hgate := absurd (by cases path <;> decide) hgate
  settled hsettled := absurd hmem hsettled
  removed hremoved := absurd (by cases path <;> decide) hremoved
  degraded := hdegraded

/-- The outcome changes only before the manager is frozen. -/
theorem outcome_cases (step : Step) (ok : Bool) (outcome : ShutdownOutcome) :
    (step.outcome ok outcome = outcome ∧
        (step = .awaitQuiesce → outcome = .clean → ok = true)) ∨
      step.outcome ok outcome = .degraded ∧ (step = .waitForIdle ∨ step = .awaitQuiesce) := by
  cases step <;> cases ok <;> cases outcome <;> decide

/-- One step of the procedure. -/
theorem Progress.step {step : Step} {checkpointed ok : Bool}
    (h : Progress gateClosed frozen lock path (step :: rest) outcome)
    (hquiesced : step = .awaitQuiesce → ok = true → frozen = true) :
    Progress (gateClosed || step = .closeGate) (frozen || step = .freeze)
      (lock && step ≠ .removeAndRelease) path
      (following rest (step.outcome ok outcome) checkpointed) (step.outcome ok outcome) where
  tails := following_tails h.tails
  gate hmem := by
    have hrest : .closeGate ∉ rest := fun hin => hmem (mem_following rfl hin)
    by_cases hstep : step = .closeGate
    · simp [hstep]
    · have hgate := h.gate (by simp [hrest, Ne.symm hstep])
      simp [hgate]
  settled hmem := by
    have hrest : settles (step.outcome ok outcome) ∉ rest := fun hin =>
      hmem (mem_following (by cases step.outcome ok outcome <;> rfl) hin)
    rcases outcome_cases step ok outcome with ⟨heq, hok⟩ | ⟨heq, hstep⟩
    · rw [heq] at hrest
      by_cases hstep : settles outcome = step
      · cases outcome with
        | clean => simp [hquiesced hstep.symm (hok hstep.symm rfl)]
        | degraded => simp [← hstep, settles]
      · have hfrozen := h.settled (by simp [hrest, hstep])
        simp [hfrozen]
    · rw [heq] at hrest
      exact absurd (order_freeze h.tails hstep) hrest
  removed hmem := by
    have hrest : .removeAndRelease ∉ rest := fun hin => hmem (mem_following rfl hin)
    by_cases hstep : step = .removeAndRelease
    · simp [hstep]
    · have hlock := h.removed (by simp [hrest, Ne.symm hstep])
      simp [hlock]
  degraded hpath := by
    rw [h.degraded hpath]
    cases step <;> cases ok <;> rfl

end

/-- What the procedure has done, and what has become of its outcome. -/
def ProcedureOk (s : State) : Procedure → Prop
  | .absent => s.started = false ∧ s.procedures = 0 ∧ s.outcome = none ∧ s.panicked = false
  | .running path rest outcome _ => s.started = true ∧ s.procedures = 1 ∧ s.outcome = none ∧
    rest ≠ [] ∧ Progress s.gateClosed s.frozen s.lock path rest outcome ∧
    (s.panicked = true → path ≠ .shutdown)
  | .lastResort rest => s.started = true ∧ s.procedures = 1 ∧ s.outcome = none ∧
    Progress s.gateClosed s.frozen s.lock .emergency rest .degraded
  | .finished outcome => s.started = true ∧ s.procedures = 1 ∧ s.outcome = none ∧
    s.lock = false ∧ (s.panicked = true → outcome = .degraded)
  | .done => s.started = true ∧ s.procedures = 1 ∧ s.lock = false ∧
    ∃ outcome, s.outcome = some outcome ∧ (s.panicked = true → outcome = .degraded)

structure Inv (s : State) : Prop where
  procedure : ProcedureOk s s.procedure
  returned : ∀ outcome, .returned outcome ∈ s.callers → s.outcome = some outcome

section
variable {s s' : State} {step : Step}

@[simp] theorem effect_gateClosed :
    (s.effect step).gateClosed = (s.gateClosed || step = .closeGate) := by
  cases step <;> simp [State.effect, State.forceCleanup]
  split <;> rfl

@[simp] theorem effect_frozen : (s.effect step).frozen = (s.frozen || step = .freeze) := by
  cases step <;> simp [State.effect, State.forceCleanup]
  split <;> rfl

@[simp] theorem effect_lock :
    (s.effect step).lock = (s.lock && step ≠ .removeAndRelease) := by
  cases step <;> simp [State.effect, State.forceCleanup]
  split
  · rfl
  · exact Bool.eq_false_iff.2 ‹_›

/-- Effects are on the gate, the manager and the resources. -/
theorem effect_same : (s.effect step).started = s.started ∧
    (s.effect step).procedures = s.procedures ∧ (s.effect step).outcome = s.outcome ∧
    (s.effect step).panicked = s.panicked ∧ (s.effect step).callers = s.callers := by
  cases step <;> first
    | exact ⟨rfl, rfl, rfl, rfl, rfl⟩
    | simp only [State.effect, State.forceCleanup]
      split <;> exact ⟨rfl, rfl, rfl, rfl, rfl⟩

end

/-! ## Every step keeps it -/

/-- The panics are those of the normal path and of the emergency one. -/
def supervised (s : State) (l : Label) : Prop :=
  match l, s.procedure with
  | .panic, .running .force _ _ _ => False
  | _, _ => True

instance (s : State) (l : Label) : Decidable (supervised s l) := by
  unfold supervised
  split <;> infer_instance

section
variable {s s' : State} {path : Path} {rest : List Step} {step : Step} {outcome : ShutdownOutcome}
  {checkpointed ok : Bool}

theorem Inv.start (h : Inv s) (hstarted : s.started = false) (hmem : settles outcome ∈ path.order)
    (hdegraded : path ≠ .shutdown → outcome = .degraded) : Inv (s.start path outcome) := by
  have habsent : s.procedures = 0 ∧ s.outcome = none ∧ s.panicked = false := by
    have hok := h.procedure
    cases hp : s.procedure <;> rw [hp] at hok <;> simp only [ProcedureOk, hstarted] at hok
    · exact hok.2
    all_goals cases hok.1
  obtain ⟨hprocedures, houtcome, hpanicked⟩ := habsent
  refine ⟨⟨rfl, ?_, houtcome, ?_, Progress.first hmem hdegraded, fun hp => ?_⟩, h.returned⟩
  · show s.procedures + 1 = 1
    rw [hprocedures]
  · cases path <;> nofun
  · change s.panicked = true at hp
    rw [hpanicked] at hp
    cases hp

/-- A procedure with nothing left is finished. -/
theorem goOn_ok (hstarted : s.started = true) (hprocedures : s.procedures = 1)
    (houtcome : s.outcome = none)
    (h : Progress s.gateClosed s.frozen s.lock path rest outcome)
    (hpanicked : s.panicked = true → path ≠ .shutdown) :
    ProcedureOk s (.goOn path rest outcome checkpointed) := by
  cases rest with
  | nil =>
    exact ⟨hstarted, hprocedures, houtcome, h.removed nofun, fun hp => h.degraded (hpanicked hp)⟩
  | cons step rest => exact ⟨hstarted, hprocedures, houtcome, nofun, h, hpanicked⟩

theorem Inv.advance (h : Inv s)
    (hp : s.procedure = .running path (step :: rest) outcome checkpointed)
    (hquiesced : step = .awaitQuiesce → ok = true → s.frozen = true) {checkpointed' : Bool} :
    Inv { s.effect step with
      procedure := .goOn path (following rest (step.outcome ok outcome) checkpointed')
        (step.outcome ok outcome) checkpointed' } := by
  have hok := h.procedure
  rw [hp] at hok
  obtain ⟨hstarted, hprocedures, houtcome, -, hprogress, hpanicked⟩ := hok
  obtain ⟨hs, hps, ho, hpa, hc⟩ := @effect_same s step
  constructor
  · refine goOn_ok (hs.trans hstarted) (hps.trans hprocedures) (ho.trans houtcome) ?_ ?_
    · show Progress (s.effect step).gateClosed (s.effect step).frozen (s.effect step).lock _ _ _
      rw [effect_gateClosed, effect_frozen, effect_lock]
      exact hprogress.step hquiesced
    · show (s.effect step).panicked = true → _
      rw [hpa]
      exact hpanicked
  · intro outcome hmem
    change .returned outcome ∈ (s.effect step).callers at hmem
    rw [hc] at hmem
    exact ho.trans (h.returned outcome hmem)

/-- The cleanup leaves what the procedure knows, and no lock. -/
theorem forceCleanup_same : s.forceCleanup.started = s.started ∧
    s.forceCleanup.procedures = s.procedures ∧ s.forceCleanup.outcome = s.outcome ∧
    s.forceCleanup.panicked = s.panicked ∧ s.forceCleanup.callers = s.callers :=
  @effect_same s .removeAndRelease

theorem forceCleanup_lock : s.forceCleanup.lock = false := by
  unfold State.forceCleanup
  split
  · rfl
  · exact Bool.eq_false_iff.2 ‹_›

theorem forceCleanup_of_not_lock (h : s.lock = false) : s.forceCleanup = s := by
  simp [State.forceCleanup, h]

theorem inv_step {l : Label} (h : Inv s) (hsupervised : supervised s l)
    (hs : next s l = some s') : Inv s' := by
  have hok := h.procedure
  cases l with
  | subscribe =>
    cases hs
    refine ⟨hok, fun outcome hmem => h.returned outcome ?_⟩
    simpa using hmem
  | compareExchange caller =>
    simp only [next, Option.ite_none_right_eq_some, Option.some.injEq] at hs
    obtain ⟨-, rfl⟩ := hs
    have hwaiting : Inv { s with callers := s.callers.set caller .waiting } := by
      refine ⟨hok, fun outcome hmem => h.returned outcome ?_⟩
      rcases List.mem_or_eq_of_mem_set hmem with hmem | heq
      · exact hmem
      · cases heq
    split
    · exact hwaiting
    · exact hwaiting.start (Bool.eq_false_iff.2 ‹_›) (by decide) (fun hpath => absurd rfl hpath)
  | observe caller =>
    simp only [next, Option.ite_none_right_eq_some, Option.map_eq_some_iff] at hs
    obtain ⟨-, outcome, houtcome, rfl⟩ := hs
    refine ⟨hok, fun other hmem => ?_⟩
    rcases List.mem_or_eq_of_mem_set hmem with hmem | heq
    · exact h.returned other hmem
    · cases heq
      exact houtcome
  | forceCleanup =>
    cases hs
    split
    · exact h
    · exact h.start (Bool.eq_false_iff.2 ‹_›) (by decide) (fun _ => rfl)
  | advance ok =>
    simp only [next] at hs
    split at hs
    · rename_i path step rest outcome checkpointed hp
      split at hs
      · cases hs
      · rename_i hguard
        cases hs
        exact h.advance hp fun hstep hok => by simpa [hstep, hok] using hguard
    · rename_i rest hp
      cases hs
      rw [hp] at hok
      obtain ⟨hstarted, hprocedures, houtcome, -⟩ := hok
      obtain ⟨h1, h2, h3, h4, h5⟩ := @forceCleanup_same s
      refine ⟨⟨h1.trans hstarted, h2.trans hprocedures, h3.trans houtcome, forceCleanup_lock,
        fun _ => rfl⟩, fun outcome hmem => h3.trans (h.returned outcome (h5 ▸ hmem))⟩
    · cases hs
  | panic =>
    simp only [next] at hs
    split at hs
    · cases hs
    · rename_i hp
      cases hs
      rw [hp] at hok
      obtain ⟨hstarted, hprocedures, houtcome, -⟩ := hok
      exact ⟨⟨hstarted, hprocedures, houtcome, nofun,
        Progress.first (by decide) (fun _ => rfl), fun _ => nofun⟩, h.returned⟩
    · rename_i hp
      cases hs
      rw [hp] at hok
      obtain ⟨hstarted, hprocedures, houtcome, -, hprogress, -⟩ := hok
      have hdegraded := hprogress.degraded nofun
      rw [hdegraded] at hprogress
      exact ⟨⟨hstarted, hprocedures, houtcome, hprogress⟩, h.returned⟩
    · rename_i hp
      simp only [supervised, hp] at hsupervised
    · cases hs
  | receiveQuiesce =>
    simp only [next, Option.ite_none_right_eq_some, Option.some.injEq] at hs
    obtain ⟨-, rfl⟩ := hs
    refine ⟨?_, h.returned⟩
    show ProcedureOk _ s.procedure
    cases hp : s.procedure <;> rw [hp] at hok
    · exact hok
    · obtain ⟨h1, h2, h3, h4, hprogress, h5⟩ := hok
      exact ⟨h1, h2, h3, h4, hprogress.mono id (fun _ => rfl) id, h5⟩
    · obtain ⟨h1, h2, h3, hprogress⟩ := hok
      exact ⟨h1, h2, h3, hprogress.mono id (fun _ => rfl) id⟩
    · exact hok
    · exact hok
  | send =>
    simp only [next] at hs
    split at hs
    · rename_i outcome hp
      cases hs
      rw [hp] at hok
      obtain ⟨hstarted, hprocedures, houtcome, hlock, hpanicked⟩ := hok
      refine ⟨⟨hstarted, hprocedures, hlock, outcome, rfl, hpanicked⟩, fun other hmem => ?_⟩
      have hother := h.returned other hmem
      rw [houtcome] at hother
      cases hother
    · cases hs
  | drop =>
    simp only [next, Option.ite_none_right_eq_some, Option.some.injEq] at hs
    obtain ⟨hp, rfl⟩ := hs
    rw [hp] at hok
    rw [forceCleanup_of_not_lock hok.2.2.1]
    exact h

theorem inv_inductive : (coordinator.restrict supervised).Inductive Inv where
  init := by
    rintro s rfl
    exact ⟨⟨rfl, rfl, rfl, rfl⟩, nofun⟩
  step _ _ _ h hs := inv_step h hs.1 hs.2

end

/-! ## The removal -/

/-- The removal and the release go together, and happen with the lock. -/
def Counted (s : State) : Prop :=
  s.releases = s.removals ∧ s.removals = if s.lock then 0 else 1

section
variable {s s' : State} {l : Label} {step : Step}

theorem forceCleanup_counted (h : Counted s) : Counted s.forceCleanup := by
  obtain ⟨hsame, hcount⟩ := h
  unfold State.forceCleanup
  split
  · rename_i hlock
    rw [if_pos hlock] at hcount
    constructor
    · show s.releases + 1 = s.removals + 1
      omega
    · show s.removals + 1 = 1
      omega
  · exact ⟨hsame, hcount⟩

theorem effect_counted (h : Counted s) : Counted (s.effect step) := by
  cases step <;> first
    | exact h
    | exact forceCleanup_counted h

theorem counted_step (h : Counted s) (hs : next s l = some s') : Counted s' := by
  cases l with
  | subscribe =>
    cases hs
    exact h
  | compareExchange caller =>
    simp only [next, Option.ite_none_right_eq_some, Option.some.injEq] at hs
    obtain ⟨-, rfl⟩ := hs
    split <;> exact h
  | observe caller =>
    simp only [next, Option.ite_none_right_eq_some, Option.map_eq_some_iff] at hs
    obtain ⟨-, outcome, -, rfl⟩ := hs
    exact h
  | forceCleanup =>
    cases hs
    split <;> exact h
  | advance ok =>
    simp only [next] at hs
    split at hs
    · split at hs
      · cases hs
      · cases hs
        exact effect_counted h
    · cases hs
      exact forceCleanup_counted h
    · cases hs
  | panic | send =>
    simp only [next] at hs
    split at hs <;> cases hs <;> exact h
  | receiveQuiesce =>
    simp only [next, Option.ite_none_right_eq_some, Option.some.injEq] at hs
    obtain ⟨-, rfl⟩ := hs
    exact h
  | drop =>
    simp only [next, Option.ite_none_right_eq_some, Option.some.injEq] at hs
    obtain ⟨-, rfl⟩ := hs
    exact forceCleanup_counted h

theorem counted_inductive : coordinator.Inductive Counted where
  init := by
    rintro s rfl
    exact ⟨rfl, rfl⟩
  step _ _ _ := counted_step

/-- Whatever panics, the removal is done at most once, and once the cleanup has
been dropped it has been done. -/
theorem removal_once (hr : coordinator.Reachable s) :
    s.releases = s.removals ∧ s.removals ≤ 1 ∧
      (next s .drop = some s' → s'.removals = 1 ∧ s'.releases = 1) := by
  have hcounted : Counted s := counted_inductive.reachable s hr
  refine ⟨hcounted.1, ?_, fun hs => ?_⟩
  · rw [hcounted.2]
    split <;> omega
  · obtain ⟨hsame, hcount⟩ := counted_step hcounted hs
    simp only [next, Option.ite_none_right_eq_some, Option.some.injEq] at hs
    obtain ⟨-, rfl⟩ := hs
    rw [forceCleanup_lock] at hcount
    exact ⟨hcount, hsame.trans hcount⟩

theorem effect_removals (h : step ≠ .removeAndRelease) :
    (s.effect step).removals = s.removals := by
  cases step <;> first
    | rfl
    | exact absurd rfl h

/-- What is before a removal. -/
theorem removal_step (h : Inv s) (hs : next s l = some s') (hremoved : s'.removals ≠ s.removals) :
    (s.gateClosed = true ∧ s.frozen = true) ∨
      ∃ rest, s.procedure = .lastResort rest ∧ .freeze ∈ rest := by
  have hok := h.procedure
  cases l with
  | subscribe =>
    cases hs
    exact absurd rfl hremoved
  | compareExchange caller =>
    simp only [next, Option.ite_none_right_eq_some, Option.some.injEq] at hs
    obtain ⟨-, rfl⟩ := hs
    split at hremoved <;> exact absurd rfl hremoved
  | observe caller =>
    simp only [next, Option.ite_none_right_eq_some, Option.map_eq_some_iff] at hs
    obtain ⟨-, outcome, -, rfl⟩ := hs
    exact absurd rfl hremoved
  | forceCleanup =>
    cases hs
    split at hremoved <;> exact absurd rfl hremoved
  | advance ok =>
    simp only [next] at hs
    split at hs
    · rename_i path step rest outcome checkpointed hp
      split at hs
      · cases hs
      · cases hs
        rw [hp] at hok
        obtain ⟨-, -, -, -, hprogress, -⟩ := hok
        by_cases hstep : step = .removeAndRelease
        · subst hstep
          obtain ⟨hgate, hsettled⟩ := order_remove outcome hprogress.tails
          exact .inl ⟨hprogress.gate hgate, hprogress.settled hsettled⟩
        · exact absurd (effect_removals hstep) hremoved
    · rename_i rest hp
      rw [hp] at hok
      obtain ⟨-, -, -, hprogress⟩ := hok
      by_cases hfreeze : .freeze ∈ rest
      · exact .inr ⟨rest, hp, hfreeze⟩
      · exact .inl ⟨hprogress.gate (order_gate hprogress.tails hfreeze),
          hprogress.settled hfreeze⟩
    · cases hs
  | panic | send =>
    simp only [next] at hs
    split at hs <;> cases hs <;> exact absurd rfl hremoved
  | receiveQuiesce =>
    simp only [next, Option.ite_none_right_eq_some, Option.some.injEq] at hs
    obtain ⟨-, rfl⟩ := hs
    exact absurd rfl hremoved
  | drop =>
    simp only [next, Option.ite_none_right_eq_some, Option.some.injEq] at hs
    obtain ⟨hp, rfl⟩ := hs
    rw [hp] at hok
    rw [forceCleanup_of_not_lock hok.2.2.1] at hremoved
    exact absurd rfl hremoved

end

/-! ## The end -/

/-- A bound on the steps that the procedure still takes. -/
def Procedure.remaining : Procedure → Nat
  | .absent | .done => 0
  | .finished _ => 1
  | .lastResort _ => 2
  | .running .shutdown rest _ _ => rest.length + (Path.order .emergency).length + 4
  | .running _ rest _ _ => rest.length + 3

/-- The labels of the procedure itself. -/
def Label.own : Label → Bool
  | .advance _ | .panic | .send => true
  | _ => false

section
variable {s s' : State} {l : Label}

theorem remaining_goOn {path : Path} {step : Step} {rest : List Step} {outcome outcome' :
    ShutdownOutcome} {checkpointed checkpointed' : Bool} :
    (Procedure.goOn path (following rest outcome checkpointed) outcome checkpointed).remaining <
      (Procedure.running path (step :: rest) outcome' checkpointed').remaining := by
  have hlength : (following rest outcome checkpointed).length ≤ rest.length :=
    (List.dropWhile_suffix _).length_le
  generalize following rest outcome checkpointed = left at hlength
  cases left with
  | nil => cases path <;> simp only [Procedure.goOn, Procedure.remaining, List.length_cons] <;> omega
  | cons next left =>
    cases path <;> simp only [Procedure.goOn, Procedure.remaining, List.length_cons] at * <;> omega

theorem remaining_step (hs : next s l = some s') (hown : l.own = true) :
    s'.procedure.remaining < s.procedure.remaining := by
  cases l with
  | advance ok =>
    simp only [next] at hs
    split at hs
    · rename_i hp
      split at hs
      · cases hs
      · cases hs
        rw [hp]
        exact remaining_goOn
    · rename_i hp
      cases hs
      rw [hp]
      exact Nat.lt_succ_self 1
    · cases hs
  | panic =>
    simp only [next] at hs
    split at hs
    · cases hs
    · rename_i rest _ _ _ hp
      cases hs
      rw [hp]
      simp only [Procedure.remaining]
      omega
    · rename_i rest _ _ _ hp
      cases hs
      rw [hp]
      simp only [Procedure.remaining]
      omega
    · rename_i hp
      cases hs
      rw [hp]
      simp only [Procedure.remaining]
      omega
    · cases hs
  | send =>
    simp only [next] at hs
    split at hs
    · rename_i hp
      cases hs
      rw [hp]
      exact Nat.zero_lt_one
    · cases hs
  | _ => cases hown

/-- While the procedure runs, it can go on: every wait has a deadline. -/
theorem own_enabled (h : Inv s) (hstarted : s.started = true) (houtcome : s.outcome = none) :
    ∃ l s', l.own = true ∧ next s l = some s' := by
  have hok := h.procedure
  cases hp : s.procedure with
  | absent =>
    rw [hp] at hok
    rw [hok.1] at hstarted
    cases hstarted
  | running path rest outcome checkpointed =>
    rw [hp] at hok
    cases rest with
    | nil => exact absurd rfl hok.2.2.2.1
    | cons step rest =>
      have henabled : (next s (.advance false)).isSome = true := by simp [next, hp]
      obtain ⟨s', hs⟩ := Option.isSome_iff_exists.1 henabled
      exact ⟨.advance false, s', rfl, hs⟩
  | lastResort rest =>
    have henabled : (next s (.advance false)).isSome = true := by simp [next, hp]
    obtain ⟨s', hs⟩ := Option.isSome_iff_exists.1 henabled
    exact ⟨.advance false, s', rfl, hs⟩
  | finished outcome =>
    have henabled : (next s .send).isSome = true := by simp [next, hp]
    obtain ⟨s', hs⟩ := Option.isSome_iff_exists.1 henabled
    exact ⟨.send, s', rfl, hs⟩
  | done =>
    rw [hp] at hok
    obtain ⟨-, -, -, outcome, hsome, -⟩ := hok
    rw [houtcome] at hsome
    cases hsome

/-- A caller that waits gets the outcome. -/
theorem observe_enabled {caller : Nat} (hwaiting : s.callers[caller]? = some .waiting)
    (houtcome : s.outcome ≠ none) : ∃ s', next s (.observe caller) = some s' := by
  obtain ⟨outcome, ho⟩ := Option.ne_none_iff_exists'.1 houtcome
  refine ⟨{ s with callers := s.callers.set caller (.returned outcome) }, ?_⟩
  simp only [next, hwaiting, ho]
  rfl

/-- The outcome is sent once. -/
theorem outcome_step {outcome : ShutdownOutcome} (h : Inv s) (hs : next s l = some s')
    (houtcome : s.outcome = some outcome) : s'.outcome = some outcome := by
  have hok := h.procedure
  cases l with
  | subscribe =>
    cases hs
    exact houtcome
  | compareExchange caller =>
    simp only [next, Option.ite_none_right_eq_some, Option.some.injEq] at hs
    obtain ⟨-, rfl⟩ := hs
    split <;> exact houtcome
  | observe caller =>
    simp only [next, Option.ite_none_right_eq_some, Option.map_eq_some_iff] at hs
    obtain ⟨-, outcome, -, rfl⟩ := hs
    exact houtcome
  | forceCleanup =>
    cases hs
    split <;> exact houtcome
  | advance ok =>
    simp only [next] at hs
    split at hs
    · split at hs
      · cases hs
      · cases hs
        exact effect_same.2.2.1.trans houtcome
    · cases hs
      exact forceCleanup_same.2.2.1.trans houtcome
    · cases hs
  | panic =>
    simp only [next] at hs
    split at hs <;> cases hs <;> exact houtcome
  | receiveQuiesce =>
    simp only [next, Option.ite_none_right_eq_some, Option.some.injEq] at hs
    obtain ⟨-, rfl⟩ := hs
    exact houtcome
  | send =>
    simp only [next] at hs
    split at hs
    · rename_i hp
      rw [hp] at hok
      rw [hok.2.2.1] at houtcome
      cases houtcome
    · cases hs
  | drop =>
    simp only [next, Option.ite_none_right_eq_some, Option.some.injEq] at hs
    obtain ⟨-, rfl⟩ := hs
    exact forceCleanup_same.2.2.1.trans houtcome

end

/-! ## Shutdown runs once -/

section
variable {s : State}

theorem Inv.procedures (h : Inv s) : s.procedures = if s.started then 1 else 0 := by
  have hok := h.procedure
  cases hp : s.procedure <;> rw [hp] at hok
  · simp [hok.1, hok.2.1]
  all_goals simp [hok.1, hok.2.1]

theorem Inv.panicked (h : Inv s) (hp : s.panicked = true) : s.outcome ≠ some .clean := by
  intro hclean
  have hok := h.procedure
  cases hpc : s.procedure <;> rw [hpc] at hok
  case done =>
    obtain ⟨-, -, -, outcome, houtcome, hdegraded⟩ := hok
    rw [houtcome, hdegraded hp] at hclean
    cases hclean
  case absent =>
    rw [hok.2.2.1] at hclean
    cases hclean
  all_goals
    rw [hok.2.2.1] at hclean
    cases hclean

theorem Inv.unlocked (h : Inv s) (houtcome : s.outcome ≠ none) : s.lock = false := by
  have hok := h.procedure
  cases hpc : s.procedure <;> rw [hpc] at hok
  case done => exact hok.2.2.1
  all_goals exact absurd hok.2.2.1 houtcome

end

/-- **Shutdown runs once.** However many calls of `shutdown` and `force_cleanup`
there are, and wherever the normal path and the emergency one panic: one
procedure runs, and ends; all callers return its one outcome, which is
`Degraded` after a panic; the removal and the release are done once by then, with
the gate closed and the manager frozen or quiesced, unless the emergency path
panicked before its freeze. -/
theorem shutdown_once (s : State) (hr : (coordinator.restrict supervised).Reachable s) :
    s.procedures = (if s.started then 1 else 0) ∧
    (∀ outcome, .returned outcome ∈ s.callers → s.outcome = some outcome) ∧
    (s.panicked = true → s.outcome ≠ some .clean) ∧
    s.releases = s.removals ∧ s.removals ≤ 1 ∧ (s.outcome ≠ none → s.removals = 1) ∧
    (s.started = true → s.outcome = none → ∃ l s', l.own = true ∧ coordinator.step s l s') ∧
    (∀ caller, s.callers[caller]? = some .waiting → s.outcome ≠ none →
      ∃ s', coordinator.step s (.observe caller) s') ∧
    ∀ l s', supervised s l → coordinator.step s l s' →
      (∀ outcome, s.outcome = some outcome → s'.outcome = some outcome) ∧
      (l.own = true → s'.procedure.remaining < s.procedure.remaining) ∧
      (s'.removals ≠ s.removals → (s.gateClosed = true ∧ s.frozen = true) ∨
        ∃ rest, s.procedure = .lastResort rest ∧ .freeze ∈ rest) := by
  have h : Inv s := inv_inductive.reachable s hr
  have hcounted : Counted s := counted_inductive.reachable s hr.of_restrict
  refine ⟨h.procedures, h.returned, h.panicked, hcounted.1, ?_, fun houtcome => ?_,
    own_enabled h, fun _ => observe_enabled, fun l s' _ hs => ⟨fun _ => outcome_step h hs, remaining_step hs,
      removal_step h hs⟩⟩
  · rw [hcounted.2]
    split <;> omega
  · rw [hcounted.2, h.unlocked houtcome]
    rfl

/-- `stop_http` of a clean shutdown panics, and a caller comes too late. -/
def panickedRun : List Label :=
  [.subscribe, .compareExchange 0] ++ List.replicate 4 (.advance true) ++ [.receiveQuiesce] ++
    List.replicate 5 (.advance true) ++ [.panic, .subscribe, .forceCleanup] ++
    List.replicate 13 (.advance true) ++ [.send, .compareExchange 1, .observe 0, .observe 1]

theorem shutdown_once_sample : ∃ s,
    LTS.exec (LTS.guard supervised next) .new panickedRun = some s ∧
      s.callers = [.returned .degraded, .returned .degraded] ∧ s.removals = 1 := by
  obtain ⟨s, hs, hcallers, houtcome⟩ : ∃ s,
      LTS.exec (LTS.guard supervised next) .new panickedRun = some s ∧
        s.callers = [.returned .degraded, .returned .degraded] ∧ s.outcome = some .degraded :=
    ⟨_, rfl, rfl, rfl⟩
  have hr : (coordinator.restrict supervised).Reachable s := LTS.reachable_of_exec_guard rfl hs
  have honce := (shutdown_once s hr).2.2.2.2.2.1
  exact ⟨s, hs, hcallers, honce (by rw [houtcome]; nofun)⟩

/-- The normal path panics in `wait_for_idle`, and the emergency path at once. -/
def unfrozenRun : List Label :=
  [.subscribe, .compareExchange 0, .advance true, .advance true, .panic, .panic]

/-- The last resort may remove the descriptor under a manager that goes on. -/
theorem last_resort_unfrozen :
    ¬∀ s l s', (coordinator.restrict supervised).Reachable s → supervised s l →
      coordinator.step s l s' → s'.removals ≠ s.removals →
      s.gateClosed = true ∧ s.frozen = true := by
  intro h
  obtain ⟨s, s', hs, hs', hremoved, hfrozen⟩ : ∃ s s',
      LTS.exec (LTS.guard supervised next) .new unfrozenRun = some s ∧
        next s (.advance true) = some s' ∧ s'.removals ≠ s.removals ∧ s.frozen = false :=
    ⟨_, _, rfl, rfl, by decide, rfl⟩
  have hr : (coordinator.restrict supervised).Reachable s := LTS.reachable_of_exec_guard rfl hs
  have hboth := h s (.advance true) s' hr trivial hs' hremoved
  rw [hfrozen] at hboth
  cases hboth.2

end CodingAgent.L4.App.Shutdown
