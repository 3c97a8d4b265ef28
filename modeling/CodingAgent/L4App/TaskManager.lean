import CodingAgent.L2Store.Repositories
import CodingAgent.L4App.Runner

/-!
# The task manager's own state (`coding-agent-app/src/task_manager.rs`)

The actor handles one message at a time, but a turn suspends at every read and
write of the store. `ManagerPc` names the points where it is suspended; the
code between two of them runs without a suspension and is one step of the
system (`L4App.Primary`).

A `RunnerEvent` message is `awaited` if its sender waits for the reply. The
entries of `active` each hold one permit, so `permits` counts the free ones.
The tokens of the entries are in the primary, where runners see them too.
-/
namespace CodingAgent.L4.App
open CodingAgent.L1.Domain CodingAgent.L2.Store

/-- mirrors crates/coding-agent-app/src/task_manager.rs:40-44 -/
inductive CancelOutcome where
  | cancelled (task : Task)
  | accepted (task : Task)
  deriving DecidableEq, Repr

/-- mirrors crates/coding-agent-app/src/task_manager.rs:130-148 -/
inductive TaskManagerError where
  | closed
  | store
  | storeWriter
  | taskNotFound
  | taskNotCancellable (task : Task)
  | frozen
  | storeDegraded
  | invariant (message : String)
  deriving DecidableEq, Repr

abbrev CancelReply := Except TaskManagerError CancelOutcome

/-- mirrors crates/coding-agent-app/src/shutdown.rs:571-581 -/
inductive PendingDurableResult where
  | runnerEvent (taskId : TaskId) (event : RunnerEvent)
  | runnerTerminal (taskId : TaskId) (outcome : RunnerOutcome)
  deriving DecidableEq, Repr

/-- mirrors crates/coding-agent-app/src/task_manager.rs:432-463 -/
inductive TaskManagerMessage where
  | notifyQueued (taskId : TaskId) (handler : Nat)
  | cancel (taskId : TaskId) (handler : Nat)
  | runnerEvent (taskId : TaskId) (event : RunnerEvent) (awaited : Bool)
  | runnerFinished (taskId : TaskId) (outcome : RunnerOutcome)
  | finalizeDegraded (recovery : RecoveryOutcome)
  | quiesce
  deriving DecidableEq, Repr

/-- mirrors crates/coding-agent-app/src/task_manager.rs:103-112 -/
inductive QuiesceReply where
  | durable (recovery : RecoveryOutcome) (active : List TaskId)
  | frozen (active : List TaskId)
  | rejected (error : TaskManagerError)
  deriving DecidableEq, Repr

/-- mirrors crates/coding-agent-app/src/task_manager.rs:159-186 -/
structure ShutdownControl where
  frozen : Bool
  cancelled : Bool
  deriving DecidableEq, Repr

/-- A write the manager waits for, with what it needs to go on. -/
inductive ManagerWrite where
  | claim (task : Task) (repository : Repository) (rest : List Task) (repositories : List Repository)
  | cancel (taskId : TaskId) (handler : Nat)
  | append (taskId : TaskId) (event : RunnerEvent) (awaited : Bool)
  | finish (taskId : TaskId) (outcome : RunnerOutcome)
  | quiesce (now : UtcTimestamp)
  deriving DecidableEq, Repr

/-- mirrors crates/coding-agent-app/src/task_manager.rs:1108-1114 -/
def shutdownFailure : TaskFailure :=
  { code := "APP_SHUTDOWN", message := "application shut down before the task finished",
    retryable := true }

/-- The operation a write asks for.
mirrors crates/coding-agent-app/src/task_manager.rs:655-663,746-754,821-824,863-871,900-903 -/
def ManagerWrite.operation : ManagerWrite → Operation
  | .claim task _ _ _ => .transitionWithEvent task.id .queued .running
  | .cancel taskId _ => .transitionWithEvent taskId .queued .cancelled
  | .append taskId event _ => .appendRunningEvent taskId event.intoPayload
  | .finish taskId outcome => .transitionWithEvent taskId .running outcome.transition
  | .quiesce now => .recoverIncomplete now shutdownFailure

/-- How far a write is. A claim looks at the freeze flag before and after its
own: at `handleRegistered` and `senderUpgraded` it is still to look, at
`runningCommitted` it has looked for the last time. -/
inductive WriteStage where
  | handleRegistered
  | senderUpgraded
  /-- in `send` of the writer's channel -/
  | sending
  /-- in `receive` -/
  | waiting
  | replied (reply : Option Reply)
  | runningCommitted (task : Task)
  deriving DecidableEq, Repr

inductive ManagerPc where
  /-- in the `select!` of `run` -/
  | idle
  /-- after a message or a tick, before the scan check of `run` -/
  | turnEnd
  /-- in `bootstrap_snapshot` of `claim_queued` -/
  | claimRead
  /-- at the head of the loop of `claim_queued` -/
  | claimLoop (queue : List Task) (repositories : List Repository)
  /-- in the first `load_task` of a cancel -/
  | cancelRead (taskId : TaskId) (handler : Nat)
  /-- in the second one, with the token cancelled -/
  | cancelReload (taskId : TaskId) (handler : Nat)
  | write (job : ManagerWrite) (stage : WriteStage)
  deriving DecidableEq, Repr

/-- mirrors crates/coding-agent-app/src/task_manager.rs:472-496 -/
structure Manager where
  active : List TaskId
  permits : Nat
  pendingDurableResults : List PendingDurableResult
  scanRequested : Bool
  degraded : Bool
  frozen : Bool
  pc : ManagerPc
  deriving DecidableEq, Repr

namespace Manager

/-- mirrors crates/coding-agent-app/src/task_manager.rs:250-298 -/
def spawned (concurrency : Nat) : Manager :=
  { active := [], permits := concurrency, pendingDurableResults := [], scanRequested := false,
    degraded := false, frozen := false, pc := .idle }

/-- The entry and its permit. -/
def insertActive (m : Manager) (id : TaskId) : Manager :=
  { m with active := id :: m.active, permits := m.permits - 1 }

/-- mirrors crates/coding-agent-app/src/task_manager.rs:930-942 -/
def removeActive (m : Manager) (id : TaskId) : Manager :=
  { m with active := m.active.erase id,
           permits := if id ∈ m.active then m.permits + 1 else m.permits }

def goto (m : Manager) (pc : ManagerPc) : Manager := { m with pc }

end Manager

/-- `created_at`, then the text of the id. -/
def claimOrder (a b : Task) : Prop :=
  a.createdAt.nanos < b.createdAt.nanos ∨
    (a.createdAt.nanos = b.createdAt.nanos ∧ a.id.uuid.toNat ≤ b.id.uuid.toNat)

instance : DecidableRel claimOrder := fun a b =>
  inferInstanceAs (Decidable (a.createdAt.nanos < b.createdAt.nanos ∨
    (a.createdAt.nanos = b.createdAt.nanos ∧ a.id.uuid.toNat ≤ b.id.uuid.toNat)))

/-- The queue of a scan.
mirrors crates/coding-agent-app/src/task_manager.rs:583-592 -/
def claimQueue (snapshot : BootstrapSnapshot) : List Task :=
  (snapshot.tasks.filter fun task => task.status = .queued).insertionSort claimOrder

end CodingAgent.L4.App
