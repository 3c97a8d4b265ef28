import CodingAgent.L2Store.Ops

/-!
# Task runners (`coding-agent-app/src/{task_manager,fake_runner}.rs`)

What a runner may emit and return, and `run_success`, the runner the
application ships, as a function of what it has seen so far. Its waits between
two events are left out: they only delay it.
-/
namespace CodingAgent.L4.App
open CodingAgent.L1.Domain CodingAgent.L2.Store

/-- mirrors crates/coding-agent-app/src/task_manager.rs:33-38 -/
inductive RunnerOutcome where
  | succeeded
  | cancelled
  | failed (failure : TaskFailure)
  deriving DecidableEq, Repr

/-- The transition a result is persisted as.
mirrors crates/coding-agent-app/src/task_manager.rs:856-860 -/
def RunnerOutcome.transition : RunnerOutcome → TaskTransition
  | .succeeded => .completed
  | .cancelled => .cancelled
  | .failed failure => .failed failure

/-- mirrors crates/coding-agent-app/src/task_manager.rs:46-52 -/
inductive RunnerEvent where
  | planUpdated (plan : PlanSnapshot)
  | activityAppended (entry : ActivityEntry)
  | diffUpdated (diff : DiffSnapshot)
  | testUpdated (tests : TestSnapshot)
  deriving DecidableEq, Repr

/-- mirrors crates/coding-agent-app/src/task_manager.rs:54-63 -/
def RunnerEvent.intoPayload : RunnerEvent → TaskEventPayload
  | .planUpdated plan => .planUpdated plan
  | .activityAppended entry => .activityAppended entry
  | .diffUpdated diff => .diffUpdated diff
  | .testUpdated tests => .testUpdated tests

/-- mirrors crates/coding-agent-app/src/task_manager.rs:65-73 -/
inductive RunnerEventError where
  | taskNotRunning
  | storeDegraded
  | managerClosed
  deriving DecidableEq, Repr

abbrev AppendResult := Except RunnerEventError EventId

/-- What the task of a runner ends with: a return, or a panic. -/
inductive JoinResult where
  | returned (outcome : RunnerOutcome)
  | panicked
  deriving DecidableEq, Repr

/-- mirrors crates/coding-agent-app/src/task_manager.rs:1100-1106 -/
def runnerPanickedFailure : TaskFailure :=
  { code := "RUNNER_PANICKED", message := "task runner panicked", retryable := false }

/-- What the watcher of a runner reports.
mirrors crates/coding-agent-app/src/task_manager.rs:722-729 -/
def JoinResult.outcome : JoinResult → RunnerOutcome
  | .returned outcome => outcome
  | .panicked => .failed runnerPanickedFailure

/-- The next thing the code of a runner does. -/
inductive RunnerAction where
  | append (event : RunnerEvent)
  | finish (outcome : RunnerOutcome)
  | panic
  deriving DecidableEq, Repr

/-! ## The shipped runner -/

/-- mirrors crates/coding-agent-app/src/fake_runner.rs:175-182 -/
def activity (id message : String) (createdAt : UtcTimestamp) : ActivityEntry :=
  { id, level := .info, message, createdAt }

/-- mirrors crates/coding-agent-app/src/fake_runner.rs:95-173 -/
def successEvents (activityTime : UtcTimestamp) : List RunnerEvent :=
  [.planUpdated { revision := 1, items :=
    [{ id := "fake-plan", title := "Prepare deterministic plan", status := .completed },
     { id := "fake-diff", title := "Generate synthetic diff", status := .completed },
     { id := "fake-tests", title := "Report synthetic tests", status := .completed }] },
   .activityAppended (activity "fake-plan-ready" "Prepared deterministic plan" activityTime),
   .activityAppended (activity "fake-diff-ready" "Generated synthetic diff" activityTime),
   .activityAppended (activity "fake-tests-ready" "Started synthetic tests" activityTime),
   .diffUpdated { revision := 1, files :=
    [{ path := "synthetic/example.rs", status := .added,
       patch := "diff --git a/synthetic/example.rs b/synthetic/example.rs\n" ++
         "new file mode 100644\n--- /dev/null\n+++ b/synthetic/example.rs\n@@ -0,0 +1 @@\n" ++
         "+// deterministic fake change\n",
       additions := 1, deletions := 0 }] },
   .testUpdated { revision := 1, status := .running, cases :=
    [{ id := "fake-test", name := "deterministic synthetic check", status := .running,
       durationMs := 0, summary := "Synthetic checks are running" }] },
   .testUpdated { revision := 2, status := .passed, cases :=
    [{ id := "fake-test", name := "deterministic synthetic check", status := .passed,
       durationMs := 200, summary := "Synthetic checks passed" }] }]

/-- mirrors crates/coding-agent-app/src/fake_runner.rs:184-190 -/
def eventRejectedFailure : TaskFailure :=
  { code := "FAKE_RUNNER_EVENT_REJECTED", message := "fake runner event was rejected",
    retryable := true }

/-- The next action of `run_success`, given the results of its appends so far
and whether its token is cancelled when it looks.
mirrors crates/coding-agent-app/src/fake_runner.rs:54-93 -/
def runSuccess (task : Task) (results : List AppendResult) (isCancelled : Bool) : RunnerAction :=
  match results.getLast? with
  | some (.error _) => .finish (if isCancelled then .cancelled else .failed eventRejectedFailure)
  | some (.ok _) | none =>
    if isCancelled then .finish .cancelled
    else
      match (successEvents (task.startedAt.getD task.createdAt))[results.length]? with
      | some event => .append event
      | none => .finish .succeeded

/-- `run_success` fails only after a rejected append, and only with its own
failure. -/
theorem runSuccess_failed {task : Task} {results : List AppendResult} {isCancelled : Bool}
    {failure : TaskFailure} (h : runSuccess task results isCancelled = .finish (.failed failure)) :
    failure = eventRejectedFailure ∧ ∃ error, results.getLast? = some (.error error) := by
  unfold runSuccess at h
  split at h
  · rename_i error hlast
    split at h
    · cases h
    · cases h
      exact ⟨rfl, error, hlast⟩
  all_goals
    split at h
    · cases h
    · split at h <;> cases h

theorem runSuccess_ne_panic (task : Task) (results : List AppendResult) (isCancelled : Bool) :
    runSuccess task results isCancelled ≠ .panic := by
  unfold runSuccess
  split
  · nofun
  all_goals
    split
    · nofun
    · split <;> nofun

/-- It returns `Cancelled` only when its token is cancelled. -/
theorem runSuccess_cancelled {task : Task} {results : List AppendResult} {isCancelled : Bool}
    (h : runSuccess task results isCancelled = .finish .cancelled) : isCancelled = true := by
  unfold runSuccess at h
  cases isCancelled with
  | true => rfl
  | false =>
    split at h
    · cases h
    all_goals
      simp only [Bool.false_eq_true, if_false] at h
      split at h <;> cases h

end CodingAgent.L4.App
