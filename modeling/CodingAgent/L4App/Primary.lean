import CodingAgent.Core.Lts
import CodingAgent.L1Domain.ServiceState
import CodingAgent.L4App.TaskManager

/-!
# The primary: gate, writer, task manager, runners, recovery and shutdown

One transition system of everything in the primary process that can write a
task: the HTTP mutation handlers behind the `MutationGate`
(`server.rs`), the single `StoreWriter` (`store_writer.rs`), the `TaskManager`
actor and its runners (`task_manager.rs`), the `DegradedCoordinator` and the
shutdown sequence (`shutdown.rs`). Each label is one component running from one
suspension point to its next; every component may be delayed at every one of
them, so all interleavings are runs.

* The writer's queue is FIFO and a command is executed whole. With `fails` the
  command ends in an error and commits nothing.
* A handler may be dropped whenever it waits; what it has sent stays sent.
* A runner is any program. `runner` is an action of its code, `report` the
  completion of a send by it or by its watcher. It awaits an append before its
  next one; what a runner sends without waiting is `stray`.
* `now` is what `current_timestamp` returns. Reads of the store may fail. Timers,
  channel capacities and the dispatcher only delay the components that wait for
  them.

Ghost fields: `cancelReplies` (every reply the manager gave to a cancel),
`accepted` (the tasks whose token a cancel has cancelled), `atClose` (the
database when the gate closed) and `barrier` (the database before and after
the recovery of the shutdown barrier).
-/
namespace CodingAgent.L4.App
open CodingAgent.L1.Domain CodingAgent.L2.Store

/-! ## Components -/

/-- The body of an HTTP request that mutates. -/
inductive Request where
  | createTask (input : NewTask)
  | retryTask (sourceId : TaskId)
  | cancelTask (taskId : TaskId)
  | addRepository (input : NewRepository)
  deriving DecidableEq, Repr

/-- A handler that has entered the gate; it holds its guard until `gone`.
mirrors crates/coding-agent-app/src/server.rs:484-512,604-651,674-685,687-724 -/
inductive HandlerPc where
  | entered (request : Request)
  /-- its command is in the writer's queue -/
  | writing
  /-- its task is committed, the manager not yet told -/
  | notify (taskId : TaskId)
  /-- waits for the manager -/
  | waiting
  | answered
  | gone
  deriving DecidableEq, Repr

inductive Origin where
  | manager
  | coordinator
  | handler (h : Nat)
  deriving DecidableEq, Repr

/-- mirrors crates/coding-agent-app/src/store_writer.rs:46-64 -/
inductive StoreWriterOperation where
  | registerRepository (input : NewRepository)
  | task (operation : Operation)
  deriving DecidableEq, Repr

/-- mirrors crates/coding-agent-app/src/store_writer.rs:66-74 -/
inductive StoreWriterOperationOutcome where
  | registerRepository (outcome : RegisterRepositoryOutcome)
  | task (reply : Reply)
  deriving DecidableEq, Repr

/-- mirrors crates/coding-agent-app/src/store_writer.rs:592-628 -/
structure WriteCommand where
  operation : StoreWriterOperation
  origin : Origin
  deriving DecidableEq, Repr

inductive RunnerPhase where
  | running
  /-- in `send` of an append -/
  | sending (event : RunnerEvent)
  /-- waits for the reply to it -/
  | waiting (event : RunnerEvent)
  /-- its task has ended, its watcher has not yet reported it -/
  | ended (result : JoinResult)
  | reported (result : JoinResult)
  deriving DecidableEq, Repr

/-- A spawned runner, the results of its appends in order.
mirrors crates/coding-agent-app/src/task_manager.rs:692-734 -/
structure Runner where
  task : Task
  phase : RunnerPhase
  results : List (RunnerEvent × AppendResult)
  deriving DecidableEq, Repr

/-- Where `DegradedCoordinator::run` is.
mirrors crates/coding-agent-app/src/shutdown.rs:666-753 -/
inductive CoordinatorPc where
  | recover
  | sending (now : UtcTimestamp)
  | waiting
  | replied (recovery : Option RecoveryOutcome)
  | retryRecover
  | flush (recovery : RecoveryOutcome)
  | flushing (recovery : RecoveryOutcome)
  | retryFlush (recovery : RecoveryOutcome)
  | finalize (recovery : RecoveryOutcome)
  | sendFinalize (recovery : RecoveryOutcome)
  | finalizing (recovery : RecoveryOutcome)
  deriving DecidableEq, Repr

/-- mirrors crates/coding-agent-app/src/shutdown.rs:32-36 -/
inductive ShutdownOutcome where
  | clean
  | degraded
  deriving DecidableEq, Repr

/-- Where `RuntimeShutdown::shutdown` is; `finishing` is everything after
`cancel_all`.
mirrors crates/coding-agent-app/src/shutdown.rs:243-379 -/
inductive ShutdownPc where
  | notStarted
  | waitIdle
  | sendQuiesce
  | waitQuiesce
  | quiesced (reply : QuiesceReply)
  | freeze (active : List TaskId)
  | cancelRoot (active : List TaskId)
  | cancelAll (outcome : ShutdownOutcome) (active : List TaskId)
  | finishing (outcome : ShutdownOutcome)
  | done (outcome : ShutdownOutcome)
  deriving DecidableEq, Repr

structure Primary where
  db : Db
  service : ServiceStateSnapshot
  gateClosed : Bool
  handlers : List HandlerPc
  writer : List WriteCommand
  mailbox : List TaskManagerMessage
  manager : Manager
  control : ShutdownControl
  /-- the token of each task's newest entry -/
  cancelled : TaskId → Bool
  runners : TaskId → Option Runner
  coordinator : Option CoordinatorPc
  shutdown : ShutdownPc
  cancelReplies : List (TaskId × CancelReply)
  accepted : List TaskId
  atClose : Option Db
  barrier : Option (Db × Db)

inductive Label where
  | enter (request : Request)
  | handler (h : Nat)
  | drop (h : Nat)
  | requestQuit
  | write (env : Env) (repositoryId : RepositoryId) (fails : Bool)
  | receive (now : Except String UtcTimestamp)
  | tick
  | endTurn
  | read (ok : Bool)
  | claim (senderOpen : Bool)
  | send
  | resume
  | runner (taskId : TaskId) (action : RunnerAction)
  | report (taskId : TaskId)
  | stray (taskId : TaskId) (event : RunnerEvent)
  | coordinator (now : Except String UtcTimestamp) (ok : Bool)
  | startShutdown
  | shutdown
  | shutdownTimeout
  | shutdownPanic
  | forceCleanup

/-- `f` with another value at `id`. -/
def put {α : Type} (f : TaskId → α) (id : TaskId) (value : α) : TaskId → α :=
  fun x => if x = id then value else f x

@[simp] theorem put_self {α : Type} (f : TaskId → α) (id : TaskId) (value : α) :
    put f id value id = value := if_pos rfl

theorem put_ne {α : Type} {f : TaskId → α} {id x : TaskId} (h : x ≠ id) (value : α) :
    put f id value x = f x := if_neg h

/-- The reply to a handler reaches it if it still waits. -/
def answer (handlers : List HandlerPc) (h : Nat) : List HandlerPc :=
  handlers.modify h fun pc => if pc = .waiting then .answered else pc

/-- mirrors crates/coding-agent-app/src/shutdown.rs:756-762 -/
def degradedRecoveryFailure : TaskFailure :=
  { code := "STORE_WRITE_FAILED",
    message := "task was interrupted while recovering the task store", retryable := true }

namespace Primary

/-- mirrors crates/coding-agent-app/src/task_manager.rs:1016-1018 -/
def isFrozen (s : Primary) : Bool := s.manager.frozen || s.control.frozen

/-- mirrors crates/coding-agent-app/src/task_manager.rs:1010-1014 -/
def claimsAllowed (s : Primary) : Bool :=
  !s.manager.degraded && !s.isFrozen && s.service.state == .ready

/-- Each entry's token is a child of the shutdown token. -/
def isCancelled (s : Primary) (id : TaskId) : Bool := s.cancelled id || s.control.cancelled

/-- `MutationLifecycle::active` is zero. -/
def gateIdle (s : Primary) : Bool := s.handlers.all fun pc => pc = .gone

/-- mirrors crates/coding-agent-app/src/server.rs:365-380 -/
def beginQuiescing (s : Primary) : Primary :=
  { s with gateClosed := true,
           service := if s.gateClosed then s.service else s.service.after .quiescing,
           atClose := if s.gateClosed then s.atClose else some s.db }

/-! ## Handlers -/

/-- A handler's own step. An invalid prompt is refused before the store.
mirrors crates/coding-agent-app/src/server.rs:484-512,604-651,674-685,687-724,859-866 -/
def handlerStep (s : Primary) (h : Nat) : Option Primary :=
  match s.handlers[h]? with
  | some (.entered (.createTask input)) =>
    match NewTask.tryNew input.clientRequestId input.repositoryId input.prompt with
    | .ok input => some { s with
        handlers := s.handlers.set h .writing
        writer := s.writer ++ [⟨.task (.createTask input), .handler h⟩] }
    | .error _ => some { s with handlers := s.handlers.set h .answered }
  | some (.entered (.retryTask sourceId)) => some { s with
      handlers := s.handlers.set h .writing
      writer := s.writer ++ [⟨.task (.retryTask sourceId), .handler h⟩] }
  | some (.entered (.addRepository input)) => some { s with
      handlers := s.handlers.set h .writing
      writer := s.writer ++ [⟨.registerRepository input, .handler h⟩] }
  | some (.entered (.cancelTask taskId)) => some { s with
      handlers := s.handlers.set h .waiting
      mailbox := s.mailbox ++ [.cancel taskId h] }
  | some (.notify taskId) => some { s with
      handlers := s.handlers.set h .waiting
      mailbox := s.mailbox ++ [.notifyQueued taskId h] }
  | some .answered => some { s with handlers := s.handlers.set h .gone }
  | some .writing | some .waiting | some .gone | none => none

/-- A client disconnects: the handler's future is dropped, and its guard. -/
def dropHandler (s : Primary) (h : Nat) : Option Primary :=
  match s.handlers[h]? with
  | some .gone | none => none
  | some _ => some { s with handlers := s.handlers.set h .gone }

/-! ## The writer -/

end Primary

/-- One command against the database; `none` is any error.
mirrors crates/coding-agent-app/src/store_writer.rs:407-441,756-787 -/
def StoreWriterOperation.execute (env : Env) (repositoryId : RepositoryId) (fails : Bool) (db : Db) :
    StoreWriterOperation → Option StoreWriterOperationOutcome × Db
  | .registerRepository input =>
    if fails then (none, db)
    else
      match L2.Store.registerRepository env repositoryId input db with
      | .ok (outcome, db') => (some (.registerRepository outcome), db')
      | .error _ => (none, db)
  | .task operation =>
    match Call.run ⟨env, operation, fails⟩ db with
    | (.ok reply, db') => (some (.task reply), db')
    | (.error _, db') => (none, db')

def StoreWriterOperationOutcome.reply? : StoreWriterOperationOutcome → Option Reply
  | .task reply => some reply
  | .registerRepository _ => none

/-- A created task is announced to the manager, any other reply is final. -/
def HandlerPc.reply (outcome : Option StoreWriterOperationOutcome) : HandlerPc → HandlerPc
  | .writing =>
    match outcome with
    | some (.task (.create (.created task _))) | some (.task (.retry (.created task _))) =>
      .notify task.id
    | _ => .answered
  | pc => pc

def ManagerPc.reply (reply : Option Reply) : ManagerPc → ManagerPc
  | .write job .waiting => .write job (.replied reply)
  | pc => pc

def CoordinatorPc.reply (reply : Option Reply) : CoordinatorPc → CoordinatorPc
  | .waiting =>
    match reply with
    | some (.recovery recovery) => .replied (some recovery)
    | _ => .replied none
  | pc => pc

namespace Primary

/-- The reply to `origin` is delivered. -/
def deliver (s : Primary) (outcome : Option StoreWriterOperationOutcome) (origin : Origin) : Primary :=
  let reply := outcome.bind (·.reply?)
  match origin with
  | .manager => { s with manager := s.manager.goto (s.manager.pc.reply reply) }
  | .coordinator => { s with coordinator := s.coordinator.map (·.reply reply) }
  | .handler h => { s with handlers := s.handlers.modify h (·.reply outcome) }

/-- A recovery the manager asked for is the shutdown barrier. -/
def barrierAfter (before after : Db) (command : WriteCommand)
    (outcome : Option StoreWriterOperationOutcome) (barrier : Option (Db × Db)) :
    Option (Db × Db) :=
  match command.operation, command.origin, outcome with
  | .task (.recoverIncomplete _ _), .manager, some _ => some (before, after)
  | _, _, _ => barrier

/-- The writer executes the head of its queue.
mirrors crates/coding-agent-app/src/store_writer.rs:630-754 -/
def writeStep (s : Primary) (env : Env) (repositoryId : RepositoryId) (fails : Bool) :
    Option Primary :=
  match s.writer with
  | [] => none
  | command :: writer =>
    let (outcome, db) := command.operation.execute env repositoryId fails s.db
    let barrier := barrierAfter s.db db command outcome s.barrier
    some ({ s with writer, db, barrier }.deliver outcome command.origin)

/-! ## The task manager -/

def replyCancel (s : Primary) (taskId : TaskId) (handler : Nat) (reply : CancelReply) : Primary :=
  { s with manager := s.manager.goto .turnEnd
           handlers := answer s.handlers handler
           cancelReplies := s.cancelReplies ++ [(taskId, reply)] }

/-- The runner gets the result of its append. -/
def replyAppend (s : Primary) (taskId : TaskId) (event : RunnerEvent) (awaited : Bool)
    (result : AppendResult) : Primary :=
  { s with manager := s.manager.goto .turnEnd
           runners := if awaited then
             put s.runners taskId ((s.runners taskId).map fun r =>
               { r with phase := .running, results := r.results ++ [(event, result)] })
           else s.runners }

def replyQuiesce (s : Primary) (reply : QuiesceReply) : Primary :=
  { s with manager := s.manager.goto .turnEnd
           shutdown := if s.shutdown = .waitQuiesce then .quiesced reply else s.shutdown }

/-- In the degraded mode only the result is kept.
mirrors crates/coding-agent-app/src/task_manager.rs:958-977 -/
def enterDegraded (s : Primary) (pending : PendingDurableResult) : Primary :=
  let wasDegraded := s.manager.degraded
  { s with
    manager := { s.manager with
      pendingDurableResults := s.manager.pendingDurableResults ++ [pending]
      degraded := true
      scanRequested := if wasDegraded then s.manager.scanRequested else false }
    service := if wasDegraded then s.service else s.service.after .storeDegraded
    cancelled := fun id => s.cancelled id || (!wasDegraded && s.manager.active.contains id)
    coordinator := if wasDegraded then s.coordinator else some .recover }

/-- mirrors crates/coding-agent-app/src/task_manager.rs:771-796 -/
def cancelCurrent (s : Primary) (taskId : TaskId) (handler : Nat) (task : Task) : Primary :=
  match task.status with
  | .running =>
    if task.id ∈ s.manager.active then
      { s with manager := s.manager.goto (.cancelReload taskId handler)
               cancelled := put s.cancelled task.id true
               accepted := s.accepted ++ [task.id] }
    else
      s.replyCancel taskId handler
        (.error (.invariant "running task has no active cancellation token"))
  | .cancelled => s.replyCancel taskId handler (.ok (.cancelled task))
  | .queued =>
    s.replyCancel taskId handler
      (.error (.invariant "queued conflict was not retried by the cancel owner"))
  | .completed | .failed | .interrupted =>
    s.replyCancel taskId handler (.error (.taskNotCancellable task))

/-- `append_runner_event` up to its write.
mirrors crates/coding-agent-app/src/task_manager.rs:798-824 -/
def appendRunnerEvent (s : Primary) (taskId : TaskId) (event : RunnerEvent) (awaited : Bool) :
    Primary :=
  if s.isFrozen then s.replyAppend taskId event awaited (.error .storeDegraded)
  else if s.manager.degraded then
    { s with manager := { s.manager with
        pendingDurableResults := s.manager.pendingDurableResults ++
          [PendingDurableResult.runnerEvent taskId event] }
      }.replyAppend taskId event awaited (.error .storeDegraded)
  else if s.service.state ≠ .ready then s.replyAppend taskId event awaited (.error .storeDegraded)
  else if taskId ∉ s.manager.active then
    s.replyAppend taskId event awaited (.error .taskNotRunning)
  else { s with manager := s.manager.goto (.write (.append taskId event awaited) .sending) }

/-- `finish_runner` up to its write.
mirrors crates/coding-agent-app/src/task_manager.rs:838-871 -/
def finishRunner (s : Primary) (taskId : TaskId) (outcome : RunnerOutcome) : Primary :=
  if taskId ∉ s.manager.active then { s with manager := s.manager.goto .turnEnd }
  else if s.isFrozen then { s with manager := (s.manager.removeActive taskId).goto .turnEnd }
  else if s.manager.degraded then
    { s with manager := ({ s.manager with pendingDurableResults :=
        s.manager.pendingDurableResults ++
          [PendingDurableResult.runnerTerminal taskId outcome] }.removeActive
          taskId).goto .turnEnd }
  else { s with manager := s.manager.goto (.write (.finish taskId outcome) .sending) }

/-- `finalize_degraded`; its caller ends with the reply.
mirrors crates/coding-agent-app/src/task_manager.rs:979-1008 -/
def finalizeDegraded (s : Primary) : Primary :=
  let s := { s with coordinator := none, manager := s.manager.goto .turnEnd }
  if s.isFrozen ∨ s.service.state = .quiescing then s
  else if s.manager.degraded = false then s
  else
    match s.service.set .ready with
    | .error _ => s
    | .ok ready =>
      { s with manager := { s.manager with pendingDurableResults := [], degraded := false,
                                           scanRequested := true }
               service := ready }

/-- `quiesce` up to its write.
mirrors crates/coding-agent-app/src/task_manager.rs:889-903 -/
def quiesce (s : Primary) (now : Except String UtcTimestamp) : Primary :=
  if s.isFrozen then s.replyQuiesce (.rejected .frozen)
  else
    let s := { s with manager := { s.manager with frozen := true, scanRequested := false }
                      control := { s.control with frozen := true }
                      service := s.service.after .quiescing }
    match now with
    | .error message => s.replyQuiesce (.rejected (.invariant message))
    | .ok now => { s with manager := s.manager.goto (.write (.quiesce now) .sending) }

/-- mirrors crates/coding-agent-app/src/task_manager.rs:531-574,736-742 -/
def handleMessage (s : Primary) (now : Except String UtcTimestamp) : TaskManagerMessage → Primary
  | .notifyQueued _ handler =>
    { s with manager := { s.manager with
               scanRequested := s.manager.scanRequested || s.claimsAllowed, pc := .turnEnd }
             handlers := answer s.handlers handler }
  | .cancel taskId handler =>
    if s.isFrozen then s.replyCancel taskId handler (.error .frozen)
    else if s.manager.degraded then s.replyCancel taskId handler (.error .storeDegraded)
    else { s with manager := s.manager.goto (.cancelRead taskId handler) }
  | .runnerEvent taskId event awaited => s.appendRunnerEvent taskId event awaited
  | .runnerFinished taskId outcome => s.finishRunner taskId outcome
  | .finalizeDegraded _ => s.finalizeDegraded
  | .quiesce => s.quiesce now

def receiveStep (s : Primary) (now : Except String UtcTimestamp) : Option Primary :=
  match s.manager.pc, s.mailbox with
  | .idle, message :: mailbox => some ({ s with mailbox }.handleMessage now message)
  | _, _ => none

/-- mirrors crates/coding-agent-app/src/task_manager.rs:510-514 -/
def tickStep (s : Primary) : Option Primary :=
  if s.manager.pc = .idle then
    some { s with manager := { s.manager with
      scanRequested := s.manager.scanRequested || s.claimsAllowed, pc := .turnEnd } }
  else none

/-- mirrors crates/coding-agent-app/src/task_manager.rs:517-522 -/
def endTurnStep (s : Primary) : Option Primary :=
  if s.manager.pc = .turnEnd then
    if s.manager.scanRequested ∧ s.claimsAllowed then
      some { s with manager := { s.manager with scanRequested := false, pc := .claimRead } }
    else some { s with manager := s.manager.goto .idle }
  else none

/-- `load_task`.
mirrors crates/coding-agent-app/src/task_manager.rs:1020-1026 -/
def loadTask (s : Primary) (taskId : TaskId) (ok : Bool) : Except TaskManagerError Task :=
  match ok, taskDetail taskId s.db with
  | true, .ok (some detail, _) => .ok detail.task
  | true, .ok (none, _) => .error .taskNotFound
  | _, _ => .error .store

/-- A read of the manager completes.
mirrors crates/coding-agent-app/src/task_manager.rs:576-592,743-763,785-786 -/
def readStep (s : Primary) (ok : Bool) : Option Primary :=
  match s.manager.pc with
  | .claimRead =>
    match ok, bootstrapSnapshot s.db with
    | true, .ok (snapshot, _) => some { s with
        manager := s.manager.goto (.claimLoop (claimQueue snapshot) snapshot.repositories) }
    | _, _ => some { s with manager := s.manager.goto .idle }
  | .cancelRead taskId handler =>
    match s.loadTask taskId ok with
    | .error error => some (s.replyCancel taskId handler (.error error))
    | .ok task =>
      if task.status = .queued then
        some { s with manager := s.manager.goto (.write (.cancel taskId handler) .sending) }
      else some (s.cancelCurrent taskId handler task)
  | .cancelReload taskId handler =>
    match s.loadTask taskId ok with
    | .error error => some (s.replyCancel taskId handler (.error error))
    | .ok task => some (s.replyCancel taskId handler (.ok (.accepted task)))
  | _ => none

/-- One turn of the loop of `claim_queued`, up to its write. Another thread may
freeze the manager between two looks at the flag, so each look begins a step.
mirrors crates/coding-agent-app/src/task_manager.rs:594-653 -/
def claimStep (s : Primary) (senderOpen : Bool) : Option Primary :=
  match s.manager.pc with
  | .claimLoop [] _ => some { s with manager := s.manager.goto .idle }
  | .claimLoop (task :: rest) repositories =>
    if task.id ∈ s.manager.active then
      some { s with manager := s.manager.goto (.claimLoop rest repositories) }
    else if s.manager.permits = 0 then some { s with manager := s.manager.goto .idle }
    else if s.isFrozen then some { s with manager := s.manager.goto .idle }
    else
      match repositories.find? fun repository => repository.id = task.repositoryId with
      | none => some { s with manager := s.manager.goto (.claimLoop rest repositories) }
      | some repository => some { s with
          manager := (s.manager.insertActive task.id).goto
            (.write (.claim task repository rest repositories) .handleRegistered)
          cancelled := put s.cancelled task.id false }
  | .write (.claim task repository rest repositories) .handleRegistered =>
    if s.isFrozen then some { s with manager := (s.manager.removeActive task.id).goto .idle }
    else if senderOpen then some { s with
      manager := s.manager.goto (.write (.claim task repository rest repositories) .senderUpgraded) }
    else some { s with manager := (s.manager.removeActive task.id).goto .idle }
  | .write (.claim task repository rest repositories) .senderUpgraded =>
    if s.isFrozen then some { s with manager := (s.manager.removeActive task.id).goto .idle }
    else some { s with
      manager := s.manager.goto (.write (.claim task repository rest repositories) .sending) }
  | _ => none

/-- A write of the manager enters the queue. -/
def sendStep (s : Primary) : Option Primary :=
  match s.manager.pc with
  | .write job .sending => some { s with
      manager := s.manager.goto (.write job .waiting)
      writer := s.writer ++ [⟨.task job.operation, .manager⟩] }
  | _ => none

/-- mirrors crates/coding-agent-app/src/task_manager.rs:664-687 -/
def finishClaim (s : Primary) (task : Task) (repository : Repository) (rest : List Task)
    (repositories : List Repository) : Option Reply → Primary
  | some (.transition (.applied current _)) =>
    if s.isFrozen then { s with manager := (s.manager.removeActive current.id).goto .idle }
    else { s with
      manager := s.manager.goto
        (.write (.claim task repository rest repositories) (.runningCommitted current)) }
  | some (.transition (.conflict _)) =>
    { s with manager := (s.manager.removeActive task.id).goto (.claimLoop rest repositories) }
  | _ => { s with manager := (s.manager.removeActive task.id).goto .idle }

/-- mirrors crates/coding-agent-app/src/task_manager.rs:676,692-721 -/
def spawnRunner (s : Primary) (rest : List Task) (repositories : List Repository) (task : Task) :
    Primary :=
  { s with manager := s.manager.goto (.claimLoop rest repositories)
           runners := put s.runners task.id (some ⟨task, .running, []⟩) }

/-- mirrors crates/coding-agent-app/src/task_manager.rs:755-760 -/
def finishCancel (s : Primary) (taskId : TaskId) (handler : Nat) : Option Reply → Primary
  | some (.transition (.applied task _)) => s.replyCancel taskId handler (.ok (.cancelled task))
  | some (.transition (.conflict current)) => s.cancelCurrent taskId handler current
  | _ => s.replyCancel taskId handler (.error .storeWriter)

/-- mirrors crates/coding-agent-app/src/task_manager.rs:825-835 -/
def finishAppend (s : Primary) (taskId : TaskId) (event : RunnerEvent) (awaited : Bool) :
    Option Reply → Primary
  | some (.append (.applied eventId)) => s.replyAppend taskId event awaited (.ok eventId)
  | some (.append (.notRunning _)) => s.replyAppend taskId event awaited (.error .taskNotRunning)
  | _ => (s.enterDegraded (.runnerEvent taskId event)).replyAppend taskId event awaited
      (.error .storeDegraded)

/-- mirrors crates/coding-agent-app/src/task_manager.rs:872-887 -/
def finishFinish (s : Primary) (taskId : TaskId) (outcome : RunnerOutcome) (reply : Option Reply) :
    Primary :=
  let s := match reply with
    | some (.transition _) => s
    | _ => s.enterDegraded (.runnerTerminal taskId outcome)
  { s with manager := { (s.manager.removeActive taskId).goto .turnEnd with
    scanRequested := s.manager.scanRequested || s.claimsAllowed } }

/-- The handles of the entries, by the text of their ids.
mirrors crates/coding-agent-app/src/task_manager.rs:914-928 -/
def shutdownHandles (s : Primary) : List TaskId :=
  s.manager.active.insertionSort fun a b => a.uuid.toNat ≤ b.uuid.toNat

/-- mirrors crates/coding-agent-app/src/task_manager.rs:904-911 -/
def finishQuiesce (s : Primary) : Option Reply → Primary
  | some (.recovery recovery) => s.replyQuiesce (.durable recovery s.shutdownHandles)
  | _ => s.replyQuiesce (.frozen s.shutdownHandles)

/-- The manager goes on after the reply to its write. -/
def resumeStep (s : Primary) : Option Primary :=
  match s.manager.pc with
  | .write (.claim task repository rest repositories) (.replied reply) =>
    some (s.finishClaim task repository rest repositories reply)
  | .write (.claim _ _ rest repositories) (.runningCommitted task) =>
    some (s.spawnRunner rest repositories task)
  | .write (.cancel taskId handler) (.replied reply) => some (s.finishCancel taskId handler reply)
  | .write (.append taskId event awaited) (.replied reply) =>
    some (s.finishAppend taskId event awaited reply)
  | .write (.finish taskId outcome) (.replied reply) => some (s.finishFinish taskId outcome reply)
  | .write (.quiesce _) (.replied reply) => some (s.finishQuiesce reply)
  | _ => none

/-! ## Runners -/

def runnerStep (s : Primary) (taskId : TaskId) (action : RunnerAction) : Option Primary :=
  match s.runners taskId with
  | some runner =>
    if runner.phase = .running then
      let phase := match action with
        | .append event => RunnerPhase.sending event
        | .finish outcome => .ended (.returned outcome)
        | .panic => .ended .panicked
      some { s with runners := put s.runners taskId (some { runner with phase }) }
    else none
  | none => none

/-- mirrors crates/coding-agent-app/src/task_manager.rs:81-94,722-733 -/
def reportStep (s : Primary) (taskId : TaskId) : Option Primary :=
  match s.runners taskId with
  | some runner =>
    match runner.phase with
    | .sending event => some { s with
        runners := put s.runners taskId (some { runner with phase := .waiting event })
        mailbox := s.mailbox ++ [.runnerEvent taskId event true] }
    | .ended result => some { s with
        runners := put s.runners taskId (some { runner with phase := .reported result })
        mailbox := s.mailbox ++ [.runnerFinished taskId result.outcome] }
    | .running | .waiting _ | .reported _ => none
  | none => none

def strayStep (s : Primary) (taskId : TaskId) (event : RunnerEvent) : Option Primary :=
  if (s.runners taskId).isSome then
    some { s with mailbox := s.mailbox ++ [.runnerEvent taskId event false] }
  else none

/-! ## The degraded coordinator -/

/-- `ensure_not_quiescing`, then go on. -/
def ensureNotQuiescing (s : Primary) (pc : CoordinatorPc) : Primary :=
  { s with coordinator := if s.service.state = .quiescing then none else some pc }

/-- mirrors crates/coding-agent-app/src/shutdown.rs:666-753 -/
def coordinatorStep (s : Primary) (now : Except String UtcTimestamp) (ok : Bool) : Option Primary :=
  match s.coordinator with
  | some .recover =>
    match now with
    | .ok now => some (s.ensureNotQuiescing (.sending now))
    | .error _ => some (s.ensureNotQuiescing .retryRecover)
  | some (.sending now) => some { s with
      coordinator := some .waiting
      writer := s.writer ++
        [⟨.task (.recoverIncomplete now degradedRecoveryFailure), .coordinator⟩] }
  | some (.replied none) => some { s with coordinator := some .retryRecover }
  | some (.replied (some recovery)) => some { s with coordinator := some (.flush recovery) }
  | some .retryRecover =>
    if ok then some { s with coordinator := some .recover }
    else if s.service.state = .quiescing then some { s with coordinator := none }
    else none
  | some (.flush recovery) => some (s.ensureNotQuiescing (.flushing recovery))
  | some (.flushing recovery) =>
    some { s with coordinator := some (if ok then .finalize recovery else .retryFlush recovery) }
  | some (.retryFlush recovery) =>
    if ok then some { s with coordinator := some (.flush recovery) }
    else if s.service.state = .quiescing then some { s with coordinator := none }
    else none
  | some (.finalize recovery) => some (s.ensureNotQuiescing (.sendFinalize recovery))
  | some (.sendFinalize recovery) => some { s with
      coordinator := some (.finalizing recovery)
      mailbox := s.mailbox ++ [.finalizeDegraded recovery] }
  | some .waiting | some (.finalizing _) | none => none

/-! ## Shutdown -/

/-- mirrors crates/coding-agent-app/src/shutdown.rs:243-379,381-411 -/
def shutdownStep (s : Primary) : Option Primary :=
  match s.shutdown with
  | .waitIdle => if s.gateIdle then some { s with shutdown := .sendQuiesce } else none
  | .sendQuiesce => some { s with shutdown := .waitQuiesce, mailbox := s.mailbox ++ [.quiesce] }
  | .quiesced (.durable _ active) => some { s with shutdown := .cancelAll .clean active }
  | .quiesced (.frozen active) => some { s with shutdown := .freeze active }
  | .quiesced (.rejected _) => some { s with shutdown := .freeze [] }
  | .freeze active => some { s with
      shutdown := .cancelRoot active
      control := { s.control with frozen := true } }
  | .cancelRoot active => some { s with
      shutdown := .cancelAll .degraded active
      control := { s.control with cancelled := true } }
  | .cancelAll outcome (id :: active) => some { s with
      shutdown := .cancelAll outcome active
      cancelled := put s.cancelled id true }
  | .cancelAll outcome [] => some { s with shutdown := .finishing outcome }
  | .finishing outcome => some { s with shutdown := .done outcome }
  | .notStarted | .waitQuiesce | .done _ => none

/-- The persistence deadline of the barrier. -/
def shutdownTimeoutStep (s : Primary) : Option Primary :=
  match s.shutdown with
  | .waitIdle | .sendQuiesce | .waitQuiesce => some { s with shutdown := .freeze [] }
  | _ => none

/-- The shutdown sequence panics and `emergency_shutdown` takes over. -/
def shutdownPanicStep (s : Primary) : Option Primary :=
  match s.shutdown with
  | .notStarted | .done _ => none
  | _ => some { s.beginQuiescing with shutdown := .freeze [] }

end Primary

/-! ## Runs -/

open Primary in
def next (s : Primary) : Label → Option Primary
  | .enter request =>
    if s.gateClosed = false ∧ s.service.state = .ready then
      some { s with handlers := s.handlers ++ [.entered request] }
    else none
  | .handler h => s.handlerStep h
  | .drop h => s.dropHandler h
  | .requestQuit => if s.gateClosed then none else some s.beginQuiescing
  | .write env repositoryId fails => s.writeStep env repositoryId fails
  | .receive now => s.receiveStep now
  | .tick => s.tickStep
  | .endTurn => s.endTurnStep
  | .read ok => s.readStep ok
  | .claim senderOpen => s.claimStep senderOpen
  | .send => s.sendStep
  | .resume => s.resumeStep
  | .runner taskId action => s.runnerStep taskId action
  | .report taskId => s.reportStep taskId
  | .stray taskId event => s.strayStep taskId event
  | .coordinator now ok => s.coordinatorStep now ok
  | .startShutdown =>
    if s.shutdown = .notStarted then some { s.beginQuiescing with shutdown := .waitIdle } else none
  | .shutdown => s.shutdownStep
  | .shutdownTimeout => s.shutdownTimeoutStep
  | .shutdownPanic => s.shutdownPanicStep
  | .forceCleanup =>
    if s.shutdown = .notStarted then some { s.beginQuiescing with shutdown := .freeze [] } else none

/-- The primary when its components have been spawned. -/
def Primary.start (concurrency : Nat) (db : Db) : Primary :=
  { db, service := .new .ready, gateClosed := false, handlers := [], writer := [], mailbox := [],
    manager := .spawned concurrency, control := ⟨false, false⟩, cancelled := fun _ => false,
    runners := fun _ => none, coordinator := none, shutdown := .notStarted, cancelReplies := [],
    accepted := [], atClose := none, barrier := none }

/-- A database the startup recovery leaves: what it holds was written by the
store, and no task is running. -/
structure Recovered (db : Db) : Prop where
  reflects : ∃ log, Reflects db log
  idle : ∀ id, db.board.status id ≠ some .running

/-- The primary over a database. -/
def primary (concurrency : Nat) (db : Db) : LTS Primary Label :=
  LTS.ofFn (fun s => s = Primary.start concurrency db) next

end CodingAgent.L4.App
