import CodingAgent.L4App.Primary

/-!
# What a step of the primary can do

`Step s l s'` lists every way the primary can move, with the guards the code
has checked; the invariants are proved by cases on it. `step_of_next` derives
it from the transition function, `Wrote` says what a command that was
executed has done to the board.
-/
namespace CodingAgent.L4.App
open CodingAgent.L1.Domain CodingAgent.L2.Store

/-- What a handler asks of the writer. -/
def StoreWriterOperation.IsCreation : StoreWriterOperation → Prop
  | .registerRepository _ | .task (.createTask _) | .task (.retryTask _) => True
  | .task _ => False

/-- What a handler at `pc` sends to the manager. -/
def HandlerPc.Posts (h : Nat) (message : TaskManagerMessage) : HandlerPc → Prop
  | .entered (.cancelTask taskId) => message = .cancel taskId h
  | .notify taskId => message = .notifyQueued taskId h
  | _ => False

/-- The turn of a cancel that was let in. -/
def ManagerPc.cancelling : ManagerPc → Bool
  | .cancelRead .. | .cancelReload .. | .write (.cancel ..) _ => true
  | _ => false

/-- The points of that turn at which it may answer. -/
def ManagerPc.answering : ManagerPc → Bool
  | .cancelRead .. | .cancelReload .. | .write (.cancel ..) (.replied _) => true
  | _ => false

/-- A task the manager has just read or been told of, in a cancel. -/
def Primary.CancelTarget (s : Primary) (taskId : TaskId) (handler : Nat) (task : Task) : Prop :=
  (s.manager.pc = .cancelRead taskId handler ∧
    ∃ detail db, taskDetail taskId s.db = .ok (some detail, db) ∧ task = detail.task) ∨
  s.manager.pc = .write (.cancel taskId handler) (.replied (some (.transition (.conflict task))))

def missingToken : CancelReply :=
  .error (.invariant "running task has no active cancellation token")

def queuedConflict : CancelReply :=
  .error (.invariant "queued conflict was not retried by the cancel owner")

/-- The moves of the coordinator that touch nothing else, and keep or leave
the phase after its recovery. -/
inductive CoordinatorMove : CoordinatorPc → CoordinatorPc → Prop
  | recover (now : UtcTimestamp) : CoordinatorMove .recover (.sending now)
  | refused : CoordinatorMove .recover .retryRecover
  | failed : CoordinatorMove (.replied none) .retryRecover
  | retry : CoordinatorMove .retryRecover .recover
  | recovered (r : RecoveryOutcome) : CoordinatorMove (.replied (some r)) (.flush r)
  | flushing (r : RecoveryOutcome) : CoordinatorMove (.flush r) (.flushing r)
  | flushed (r : RecoveryOutcome) : CoordinatorMove (.flushing r) (.finalize r)
  | unflushed (r : RecoveryOutcome) : CoordinatorMove (.flushing r) (.retryFlush r)
  | reflush (r : RecoveryOutcome) : CoordinatorMove (.retryFlush r) (.flush r)
  | finalize (r : RecoveryOutcome) : CoordinatorMove (.finalize r) (.sendFinalize r)

/-- The moves of the shutdown sequence that touch nothing else. -/
inductive ShutdownMove : ShutdownPc → ShutdownPc → Prop
  | durable (r : RecoveryOutcome) (active : List TaskId) :
    ShutdownMove (.quiesced (.durable r active)) (.cancelAll .clean active)
  | frozen (active : List TaskId) : ShutdownMove (.quiesced (.frozen active)) (.freeze active)
  | rejected (e : TaskManagerError) : ShutdownMove (.quiesced (.rejected e)) (.freeze [])
  | cancelled (o : ShutdownOutcome) : ShutdownMove (.cancelAll o []) (.finishing o)
  | finished (o : ShutdownOutcome) : ShutdownMove (.finishing o) (.done o)
  | timeoutIdle : ShutdownMove .waitIdle (.freeze [])
  | timeoutSend : ShutdownMove .sendQuiesce (.freeze [])
  | timeoutWait : ShutdownMove .waitQuiesce (.freeze [])

section
variable (s : Primary)

inductive Step : Label → Primary → Prop
  -- the gate and its handlers
  | enter {request : Request} : s.gateClosed = false → s.service.state = .ready →
    Step (.enter request) { s with handlers := s.handlers ++ [.entered request] }
  | submit {h : Nat} {pc : HandlerPc} {operation : StoreWriterOperation} :
    s.handlers[h]? = some pc → pc ≠ .gone → operation.IsCreation →
    Step (.handler h) { s with handlers := s.handlers.set h .writing
                               writer := s.writer ++ [⟨operation, .handler h⟩] }
  | post {h : Nat} {pc : HandlerPc} {message : TaskManagerMessage} :
    s.handlers[h]? = some pc → pc ≠ .gone → pc.Posts h message →
    Step (.handler h) { s with handlers := s.handlers.set h .waiting
                               mailbox := s.mailbox ++ [message] }
  | leave {l : Label} {h : Nat} {pc pc' : HandlerPc} : s.handlers[h]? = some pc → pc ≠ .gone →
    pc' = .answered ∨ pc' = .gone → Step l { s with handlers := s.handlers.set h pc' }
  | requestQuit : s.gateClosed = false → Step .requestQuit s.beginQuiescing
  -- the writer
  | wroteManager {env : Env} {repositoryId : RepositoryId} {fails : Bool}
    {operation : StoreWriterOperation} {writer : List WriteCommand}
    {outcome : Option StoreWriterOperationOutcome} {db : Db} :
    s.writer = ⟨operation, .manager⟩ :: writer →
    operation.execute env repositoryId fails s.db = (outcome, db) →
    Step (.write env repositoryId fails) { s with
      writer := writer
      db := db
      barrier := Primary.barrierAfter s.db db ⟨operation, .manager⟩ outcome s.barrier
      manager := s.manager.goto (s.manager.pc.reply (outcome.bind (·.reply?))) }
  | wroteCoordinator {env : Env} {repositoryId : RepositoryId} {fails : Bool}
    {operation : StoreWriterOperation} {writer : List WriteCommand}
    {outcome : Option StoreWriterOperationOutcome} {db : Db} :
    s.writer = ⟨operation, .coordinator⟩ :: writer →
    operation.execute env repositoryId fails s.db = (outcome, db) →
    Step (.write env repositoryId fails) { s with
      writer := writer
      db := db
      coordinator := s.coordinator.map (·.reply (outcome.bind (·.reply?))) }
  | wroteHandler {env : Env} {repositoryId : RepositoryId} {fails : Bool} {h : Nat}
    {operation : StoreWriterOperation} {writer : List WriteCommand}
    {outcome : Option StoreWriterOperationOutcome} {db : Db} :
    s.writer = ⟨operation, .handler h⟩ :: writer →
    operation.execute env repositoryId fails s.db = (outcome, db) →
    Step (.write env repositoryId fails) { s with
      writer := writer
      db := db
      handlers := s.handlers.modify h (·.reply outcome) }
  -- the manager between two messages
  | notified {now : Except String UtcTimestamp} {taskId : TaskId} {handler : Nat}
    {mailbox : List TaskManagerMessage} :
    s.manager.pc = .idle → s.mailbox = .notifyQueued taskId handler :: mailbox →
    Step (.receive now) { s with
      mailbox := mailbox
      manager := { s.manager with
        scanRequested := s.manager.scanRequested || s.claimsAllowed, pc := .turnEnd }
      handlers := answer s.handlers handler }
  | ticked : s.manager.pc = .idle →
    Step .tick { s with manager := { s.manager with
      scanRequested := s.manager.scanRequested || s.claimsAllowed, pc := .turnEnd } }
  | turnEnded : s.manager.pc = .turnEnd →
    Step .endTurn { s with manager := s.manager.goto .idle }
  | scanStarted : s.manager.pc = .turnEnd → s.claimsAllowed = true →
    Step .endTurn { s with manager := { s.manager with scanRequested := false, pc := .claimRead } }
  -- messages
  | cancelRejected {now : Except String UtcTimestamp} {taskId : TaskId} {handler : Nat}
    {mailbox : List TaskManagerMessage} {error : TaskManagerError} :
    s.manager.pc = .idle → s.mailbox = .cancel taskId handler :: mailbox →
    error = .frozen ∨ error = .storeDegraded →
    Step (.receive now) ({ s with mailbox }.replyCancel taskId handler (.error error))
  | cancelStarted {now : Except String UtcTimestamp} {taskId : TaskId} {handler : Nat}
    {mailbox : List TaskManagerMessage} :
    s.manager.pc = .idle → s.mailbox = .cancel taskId handler :: mailbox →
    s.isFrozen = false → s.manager.degraded = false →
    Step (.receive now) { s with
      mailbox := mailbox
      manager := s.manager.goto (.cancelRead taskId handler) }
  | appendRejected {now : Except String UtcTimestamp} {taskId : TaskId} {event : RunnerEvent}
    {awaited : Bool} {mailbox : List TaskManagerMessage} {pending : List PendingDurableResult}
    {error : RunnerEventError} :
    s.manager.pc = .idle → s.mailbox = .runnerEvent taskId event awaited :: mailbox →
    s.isFrozen = true ∨ s.manager.degraded = true ∨ s.service.state ≠ .ready ∨
      taskId ∉ s.manager.active →
    Step (.receive now) ({ s with
      mailbox := mailbox
      manager := { s.manager with pendingDurableResults := pending }
      }.replyAppend taskId event awaited (.error error))
  | appendStarted {now : Except String UtcTimestamp} {taskId : TaskId} {event : RunnerEvent}
    {awaited : Bool} {mailbox : List TaskManagerMessage} :
    s.manager.pc = .idle → s.mailbox = .runnerEvent taskId event awaited :: mailbox →
    s.isFrozen = false → s.manager.degraded = false → taskId ∈ s.manager.active →
    Step (.receive now) { s with
      mailbox := mailbox
      manager := s.manager.goto (.write (.append taskId event awaited) .sending) }
  | finishIgnored {now : Except String UtcTimestamp} {taskId : TaskId} {outcome : RunnerOutcome}
    {mailbox : List TaskManagerMessage} :
    s.manager.pc = .idle → s.mailbox = .runnerFinished taskId outcome :: mailbox →
    taskId ∉ s.manager.active →
    Step (.receive now) { s with mailbox := mailbox, manager := s.manager.goto .turnEnd }
  | finishDropped {now : Except String UtcTimestamp} {taskId : TaskId} {outcome : RunnerOutcome}
    {mailbox : List TaskManagerMessage} {pending : List PendingDurableResult} :
    s.manager.pc = .idle → s.mailbox = .runnerFinished taskId outcome :: mailbox →
    s.isFrozen = true ∨ s.manager.degraded = true →
    Step (.receive now) { s with
      mailbox := mailbox
      manager := ({ s.manager with pendingDurableResults := pending }.removeActive taskId).goto
        .turnEnd }
  | finishStarted {now : Except String UtcTimestamp} {taskId : TaskId} {outcome : RunnerOutcome}
    {mailbox : List TaskManagerMessage} :
    s.manager.pc = .idle → s.mailbox = .runnerFinished taskId outcome :: mailbox →
    s.isFrozen = false → s.manager.degraded = false → taskId ∈ s.manager.active →
    Step (.receive now) { s with
      mailbox := mailbox
      manager := s.manager.goto (.write (.finish taskId outcome) .sending) }
  | finalizeRejected {now : Except String UtcTimestamp} {recovery : RecoveryOutcome}
    {mailbox : List TaskManagerMessage} :
    s.manager.pc = .idle → s.mailbox = .finalizeDegraded recovery :: mailbox →
    Step (.receive now) { s with
      mailbox := mailbox
      coordinator := none
      manager := s.manager.goto .turnEnd }
  | finalized {now : Except String UtcTimestamp} {recovery : RecoveryOutcome}
    {mailbox : List TaskManagerMessage} {ready : ServiceStateSnapshot} :
    s.manager.pc = .idle → s.mailbox = .finalizeDegraded recovery :: mailbox →
    s.isFrozen = false → s.manager.degraded = true → s.service.set .ready = .ok ready →
    Step (.receive now) { s with
      mailbox := mailbox
      coordinator := none
      service := ready
      manager := { s.manager with pendingDurableResults := [], degraded := false,
                                  scanRequested := true, pc := .turnEnd } }
  | quiesceRejected {now : Except String UtcTimestamp} {mailbox : List TaskManagerMessage} :
    s.manager.pc = .idle → s.mailbox = .quiesce :: mailbox → s.isFrozen = true →
    Step (.receive now) ({ s with mailbox }.replyQuiesce (.rejected .frozen))
  | quiesceRefused {message : String} {mailbox : List TaskManagerMessage} :
    s.manager.pc = .idle → s.mailbox = .quiesce :: mailbox → s.isFrozen = false →
    Step (.receive (.error message)) ({ s with
      mailbox := mailbox
      control := { s.control with frozen := true }
      service := s.service.after .quiescing
      manager := { s.manager with frozen := true, scanRequested := false }
      }.replyQuiesce (.rejected (.invariant message)))
  | quiesceStarted {now : UtcTimestamp} {mailbox : List TaskManagerMessage} :
    s.manager.pc = .idle → s.mailbox = .quiesce :: mailbox → s.isFrozen = false →
    Step (.receive (.ok now)) { s with
      mailbox := mailbox
      control := { s.control with frozen := true }
      service := s.service.after .quiescing
      manager := { s.manager with frozen := true, scanRequested := false,
                                  pc := .write (.quiesce now) .sending } }
  -- a scan
  | scanStopped {l : Label} : s.manager.pc = .claimRead ∨ (∃ queue repositories,
      s.manager.pc = .claimLoop queue repositories) →
    Step l { s with manager := s.manager.goto .idle }
  | scanned {ok : Bool} {snapshot : BootstrapSnapshot} {db : Db} :
    s.manager.pc = .claimRead → bootstrapSnapshot s.db = .ok (snapshot, db) →
    Step (.read ok) { s with
      manager := s.manager.goto (.claimLoop (claimQueue snapshot) snapshot.repositories) }
  | claimSkipped {senderOpen : Bool} {task : Task} {rest : List Task}
    {repositories : List Repository} :
    s.manager.pc = .claimLoop (task :: rest) repositories →
    task.id ∈ s.manager.active ∨
      (repositories.find? fun repository => repository.id = task.repositoryId) = none →
    Step (.claim senderOpen) { s with manager := s.manager.goto (.claimLoop rest repositories) }
  | claimStarted {senderOpen : Bool} {task : Task} {rest : List Task}
    {repositories : List Repository} {repository : Repository} :
    s.manager.pc = .claimLoop (task :: rest) repositories → task.id ∉ s.manager.active →
    s.manager.permits ≠ 0 → s.isFrozen = false →
    Step (.claim senderOpen) { s with
      manager := (s.manager.insertActive task.id).goto
        (.write (.claim task repository rest repositories) .handleRegistered)
      cancelled := put s.cancelled task.id false }
  | claimChecked {senderOpen : Bool} {task : Task} {repository : Repository} {rest : List Task}
    {repositories : List Repository} {stage stage' : WriteStage} :
    s.manager.pc = .write (.claim task repository rest repositories) stage →
    stage = .handleRegistered ∧ stage' = .senderUpgraded ∨
      stage = .senderUpgraded ∧ stage' = .sending →
    s.isFrozen = false →
    Step (.claim senderOpen) { s with
      manager := s.manager.goto (.write (.claim task repository rest repositories) stage') }
  | claimAborted {senderOpen : Bool} {task : Task} {repository : Repository} {rest : List Task}
    {repositories : List Repository} {stage : WriteStage} :
    s.manager.pc = .write (.claim task repository rest repositories) stage →
    stage = .handleRegistered ∨ stage = .senderUpgraded →
    Step (.claim senderOpen) { s with manager := (s.manager.removeActive task.id).goto .idle }
  -- the manager's writes
  | sent {job : ManagerWrite} : s.manager.pc = .write job .sending →
    Step .send { s with
      manager := s.manager.goto (.write job .waiting)
      writer := s.writer ++ [⟨.task job.operation, .manager⟩] }
  | claimDropped {task current : Task} {repository : Repository} {rest : List Task}
    {repositories : List Repository} {eventId : EventId} :
    s.manager.pc = .write (.claim task repository rest repositories)
      (.replied (some (.transition (.applied current eventId)))) → s.isFrozen = true →
    Step .resume { s with manager := (s.manager.removeActive current.id).goto .idle }
  | claimCommitted {task current : Task} {repository : Repository} {rest : List Task}
    {repositories : List Repository} {eventId : EventId} :
    s.manager.pc = .write (.claim task repository rest repositories)
      (.replied (some (.transition (.applied current eventId)))) → s.isFrozen = false →
    Step .resume { s with
      manager := s.manager.goto
        (.write (.claim task repository rest repositories) (.runningCommitted current)) }
  | claimSpawned {task current : Task} {repository : Repository} {rest : List Task}
    {repositories : List Repository} :
    s.manager.pc = .write (.claim task repository rest repositories) (.runningCommitted current) →
    Step .resume { s with
      manager := s.manager.goto (.claimLoop rest repositories)
      runners := put s.runners current.id (some ⟨current, .running, []⟩) }
  | claimConflict {task current : Task} {repository : Repository} {rest : List Task}
    {repositories : List Repository} :
    s.manager.pc = .write (.claim task repository rest repositories)
      (.replied (some (.transition (.conflict current)))) →
    Step .resume { s with
      manager := (s.manager.removeActive task.id).goto (.claimLoop rest repositories) }
  | claimFailed {task : Task} {repository : Repository} {rest : List Task}
    {repositories : List Repository} {reply : Option Reply} :
    s.manager.pc = .write (.claim task repository rest repositories) (.replied reply) →
    (∀ current eventId, reply ≠ some (.transition (.applied current eventId))) →
    Step .resume { s with manager := (s.manager.removeActive task.id).goto .idle }
  | cancelAnswered {l : Label} {taskId : TaskId} {handler : Nat} {reply : CancelReply} :
    s.manager.pc.answering = true →
    (reply = missingToken → ∃ task, s.CancelTarget taskId handler task ∧
      task.status = .running ∧ task.id ∉ s.manager.active) →
    (reply = queuedConflict → ∃ task, s.CancelTarget taskId handler task ∧
      task.status = .queued ∧ s.manager.pc ≠ .cancelRead taskId handler) →
    Step l (s.replyCancel taskId handler reply)
  | cancelQueued {ok : Bool} {taskId : TaskId} {handler : Nat} :
    s.manager.pc = .cancelRead taskId handler →
    Step (.read ok) { s with manager := s.manager.goto (.write (.cancel taskId handler) .sending) }
  | cancelAccepted {l : Label} {taskId : TaskId} {handler : Nat} {task : Task} :
    s.CancelTarget taskId handler task → task.status = .running → task.id ∈ s.manager.active →
    Step l { s with
      manager := s.manager.goto (.cancelReload taskId handler)
      cancelled := put s.cancelled task.id true
      accepted := s.accepted ++ [task.id] }
  | appended {taskId : TaskId} {event : RunnerEvent} {awaited : Bool} {reply : AppendEventOutcome}
    {result : AppendResult} :
    s.manager.pc = .write (.append taskId event awaited) (.replied (some (.append reply))) →
    result = (match reply with
      | .applied eventId => .ok eventId
      | .notRunning _ => .error .taskNotRunning) →
    Step .resume (s.replyAppend taskId event awaited result)
  | appendFailed {taskId : TaskId} {event : RunnerEvent} {awaited : Bool} {reply : Option Reply} :
    s.manager.pc = .write (.append taskId event awaited) (.replied reply) →
    (∀ outcome, reply ≠ some (.append outcome)) →
    Step .resume ((s.enterDegraded (.runnerEvent taskId event)).replyAppend taskId event awaited
      (.error .storeDegraded))
  | finished {taskId : TaskId} {outcome : RunnerOutcome} {reply : TransitionOutcome} :
    s.manager.pc = .write (.finish taskId outcome) (.replied (some (.transition reply))) →
    Step .resume { s with manager := { (s.manager.removeActive taskId).goto .turnEnd with
      scanRequested := s.manager.scanRequested || s.claimsAllowed } }
  | finishFailed {taskId : TaskId} {outcome : RunnerOutcome} {reply : Option Reply} :
    s.manager.pc = .write (.finish taskId outcome) (.replied reply) →
    (∀ t, reply ≠ some (.transition t)) →
    Step .resume { s.enterDegraded (.runnerTerminal taskId outcome) with
      manager := { ((s.enterDegraded (.runnerTerminal taskId outcome)).manager.removeActive
        taskId).goto .turnEnd with
        scanRequested :=
          (s.enterDegraded (.runnerTerminal taskId outcome)).manager.scanRequested ||
            (s.enterDegraded (.runnerTerminal taskId outcome)).claimsAllowed } }
  | quiesced {now : UtcTimestamp} {reply : Option Reply} {result : QuiesceReply} :
    s.manager.pc = .write (.quiesce now) (.replied reply) →
    (∀ recovery active, result = .durable recovery active → reply = some (.recovery recovery)) →
    Step .resume (s.replyQuiesce result)
  -- runners
  | acted {taskId : TaskId} {action : RunnerAction} {runner : Runner} {phase : RunnerPhase} :
    s.runners taskId = some runner → runner.phase = .running →
    phase = (match action with
      | .append event => .sending event
      | .finish outcome => .ended (.returned outcome)
      | .panic => .ended .panicked) →
    Step (.runner taskId action) { s with
      runners := put s.runners taskId (some { runner with phase }) }
  | reportedEvent {taskId : TaskId} {runner : Runner} {event : RunnerEvent} :
    s.runners taskId = some runner → runner.phase = .sending event →
    Step (.report taskId) { s with
      runners := put s.runners taskId (some { runner with phase := .waiting event })
      mailbox := s.mailbox ++ [.runnerEvent taskId event true] }
  | reportedEnd {taskId : TaskId} {runner : Runner} {result : JoinResult} :
    s.runners taskId = some runner → runner.phase = .ended result →
    Step (.report taskId) { s with
      runners := put s.runners taskId (some { runner with phase := .reported result })
      mailbox := s.mailbox ++ [.runnerFinished taskId result.outcome] }
  | strayed {taskId : TaskId} {event : RunnerEvent} {runner : Runner} :
    s.runners taskId = some runner →
    Step (.stray taskId event) { s with
      mailbox := s.mailbox ++ [.runnerEvent taskId event false] }
  -- the coordinator
  | coordinatorMoved {now : Except String UtcTimestamp} {ok : Bool} {pc pc' : CoordinatorPc} :
    s.coordinator = some pc → CoordinatorMove pc pc' →
    Step (.coordinator now ok) { s with coordinator := some pc' }
  | coordinatorStopped {now : Except String UtcTimestamp} {ok : Bool} {pc : CoordinatorPc} :
    s.coordinator = some pc → pc ≠ .waiting → (∀ r, pc ≠ .finalizing r) →
    s.service.state = .quiescing → Step (.coordinator now ok) { s with coordinator := none }
  | recoverySent {clock : Except String UtcTimestamp} {ok : Bool} {now : UtcTimestamp} :
    s.coordinator = some (.sending now) →
    Step (.coordinator clock ok) { s with
      coordinator := some .waiting
      writer := s.writer ++
        [⟨.task (.recoverIncomplete now degradedRecoveryFailure), .coordinator⟩] }
  | finalizeSent {now : Except String UtcTimestamp} {ok : Bool} {recovery : RecoveryOutcome} :
    s.coordinator = some (.sendFinalize recovery) →
    Step (.coordinator now ok) { s with
      coordinator := some (.finalizing recovery)
      mailbox := s.mailbox ++ [.finalizeDegraded recovery] }
  -- shutdown
  | shutdownStarted {l : Label} {pc : ShutdownPc} : s.shutdown = .notStarted →
    pc = .waitIdle ∨ pc = .freeze [] → Step l { s.beginQuiescing with shutdown := pc }
  | panicked : s.shutdown ≠ .notStarted → (∀ o, s.shutdown ≠ .done o) →
    Step .shutdownPanic { s.beginQuiescing with shutdown := .freeze [] }
  | waitedIdle : s.shutdown = .waitIdle → s.gateIdle = true →
    Step .shutdown { s with shutdown := .sendQuiesce }
  | quiesceSent : s.shutdown = .sendQuiesce →
    Step .shutdown { s with shutdown := .waitQuiesce, mailbox := s.mailbox ++ [.quiesce] }
  | shutdownMoved {l : Label} {pc : ShutdownPc} : ShutdownMove s.shutdown pc →
    Step l { s with shutdown := pc }
  | frozen {active : List TaskId} : s.shutdown = .freeze active →
    Step .shutdown { s with
      shutdown := .cancelRoot active
      control := { s.control with frozen := true } }
  | rootCancelled {active : List TaskId} : s.shutdown = .cancelRoot active →
    Step .shutdown { s with
      shutdown := .cancelAll .degraded active
      control := { s.control with cancelled := true } }
  | tokenCancelled {outcome : ShutdownOutcome} {id : TaskId} {active : List TaskId} :
    s.shutdown = .cancelAll outcome (id :: active) →
    Step .shutdown { s with
      shutdown := .cancelAll outcome active
      cancelled := put s.cancelled id true }

end

/-! ## From the transition function -/

namespace Primary

variable {s s' : Primary}

theorem handlerStep_step {h : Nat} (hs : s.handlerStep h = some s') : Step s (.handler h) s' := by
  unfold handlerStep at hs
  split at hs
  · rename_i input hpc
    split at hs
    · cases hs
      exact .submit hpc (by simp) trivial
    · cases hs
      exact .leave hpc (by simp) (.inl rfl)
  · rename_i hpc
    cases hs
    exact .submit hpc (by simp) trivial
  · rename_i hpc
    cases hs
    exact .submit hpc (by simp) trivial
  · rename_i hpc
    cases hs
    exact .post hpc (by simp) rfl
  · rename_i hpc
    cases hs
    exact .post hpc (by simp) rfl
  · rename_i hpc
    cases hs
    exact .leave hpc (by simp) (.inr rfl)
  all_goals cases hs

theorem dropHandler_step {h : Nat} (hs : s.dropHandler h = some s') : Step s (.drop h) s' := by
  unfold dropHandler at hs
  cases hpc : s.handlers[h]? with
  | none => rw [hpc] at hs; cases hs
  | some pc =>
    rw [hpc] at hs
    by_cases hg : pc = .gone
    · subst hg; cases hs
    · have hs' : s' = { s with handlers := s.handlers.set h .gone } := by
        cases pc <;> first | exact absurd rfl hg | exact (Option.some.inj hs).symm
      exact hs' ▸ .leave hpc hg (.inr rfl)

theorem barrierAfter_other {before after : Db} {operation : StoreWriterOperation} {origin : Origin}
    {outcome : Option StoreWriterOperationOutcome} {barrier : Option (Db × Db)}
    (h : origin ≠ .manager) :
    barrierAfter before after ⟨operation, origin⟩ outcome barrier = barrier := by
  unfold barrierAfter
  split
  · rename_i ho
    exact absurd ho h
  · rfl

theorem writeStep_step {env : Env} {repositoryId : RepositoryId} {fails : Bool}
    (hs : s.writeStep env repositoryId fails = some s') :
    Step s (.write env repositoryId fails) s' := by
  unfold writeStep at hs
  split at hs
  · cases hs
  · rename_i command writer hw
    obtain ⟨operation, origin⟩ := command
    generalize hx : operation.execute env repositoryId fails s.db = x at hs
    obtain ⟨outcome, db⟩ := x
    simp only [Option.some.injEq] at hs
    subst hs
    cases origin with
    | manager => exact .wroteManager hw hx
    | coordinator =>
      rw [barrierAfter_other (by decide)]
      exact .wroteCoordinator hw hx
    | handler h =>
      rw [barrierAfter_other (by simp)]
      exact .wroteHandler hw hx

/-- The replies `cancel_current_with_status` gives. -/
theorem cancelCurrent_step {l : Label} {taskId : TaskId} {handler : Nat} {task : Task}
    (ht : s.CancelTarget taskId handler task)
    (hq : s.manager.pc = .cancelRead taskId handler → task.status ≠ .queued) :
    Step s l (s.cancelCurrent taskId handler task) := by
  have hc : s.manager.pc.answering = true := by
    rcases ht with ⟨hpc, -⟩ | hpc <;> rw [hpc] <;> rfl
  unfold cancelCurrent
  split
  · rename_i hst
    split
    · rename_i hmem
      exact .cancelAccepted ht hst hmem
    · rename_i hmem
      exact .cancelAnswered hc (fun _ => ⟨task, ht, hst, hmem⟩) (by simp [queuedConflict])
  · exact .cancelAnswered hc nofun nofun
  · rename_i hst
    exact .cancelAnswered hc (by simp [missingToken])
      fun _ => ⟨task, ht, hst, fun hpc => hq hpc hst⟩
  all_goals exact .cancelAnswered hc nofun nofun

theorem appendRunnerEvent_step {now : Except String UtcTimestamp} {taskId : TaskId}
    {event : RunnerEvent} {awaited : Bool} {mailbox : List TaskManagerMessage}
    (hpc : s.manager.pc = .idle) (hm : s.mailbox = .runnerEvent taskId event awaited :: mailbox) :
    Step s (.receive now) ({ s with mailbox }.appendRunnerEvent taskId event awaited) := by
  unfold appendRunnerEvent
  split
  · rename_i hf
    exact .appendRejected hpc hm (.inl hf)
  · rename_i hf
    split
    · rename_i hd
      exact .appendRejected hpc hm (.inr (.inl hd))
    · rename_i hd
      split
      · rename_i hr
        exact .appendRejected hpc hm (.inr (.inr (.inl hr)))
      · split
        · rename_i ha
          exact .appendRejected hpc hm (.inr (.inr (.inr ha)))
        · rename_i ha
          exact .appendStarted hpc hm (eq_false_of_ne_true hf) (eq_false_of_ne_true hd)
            (not_not.1 ha)

theorem finishRunner_step {now : Except String UtcTimestamp} {taskId : TaskId}
    {outcome : RunnerOutcome} {mailbox : List TaskManagerMessage} (hpc : s.manager.pc = .idle)
    (hm : s.mailbox = .runnerFinished taskId outcome :: mailbox) :
    Step s (.receive now) ({ s with mailbox }.finishRunner taskId outcome) := by
  unfold finishRunner
  split
  · rename_i ha
    exact .finishIgnored hpc hm ha
  · rename_i ha
    split
    · rename_i hf
      exact .finishDropped hpc hm (.inl hf)
    · rename_i hf
      split
      · rename_i hd
        exact .finishDropped hpc hm (.inr hd)
      · rename_i hd
        exact .finishStarted hpc hm (eq_false_of_ne_true hf) (eq_false_of_ne_true hd) (not_not.1 ha)

theorem finalizeDegraded_step {now : Except String UtcTimestamp} {recovery : RecoveryOutcome}
    {mailbox : List TaskManagerMessage} (hpc : s.manager.pc = .idle)
    (hm : s.mailbox = .finalizeDegraded recovery :: mailbox) :
    Step s (.receive now) ({ s with mailbox }.finalizeDegraded) := by
  unfold finalizeDegraded
  simp only
  split
  · exact .finalizeRejected hpc hm
  · rename_i hf
    rw [not_or] at hf
    split
    · exact .finalizeRejected hpc hm
    · rename_i hd
      split
      · exact .finalizeRejected hpc hm
      · rename_i ready hset
        exact .finalized hpc hm (eq_false_of_ne_true hf.1) (eq_true_of_ne_false hd) hset

theorem quiesce_step {now : Except String UtcTimestamp} {mailbox : List TaskManagerMessage}
    (hpc : s.manager.pc = .idle) (hm : s.mailbox = .quiesce :: mailbox) :
    Step s (.receive now) ({ s with mailbox }.quiesce now) := by
  unfold quiesce
  split
  · rename_i hf
    exact .quiesceRejected hpc hm hf
  · rename_i hf
    cases now with
    | error message => exact .quiesceRefused hpc hm (eq_false_of_ne_true hf)
    | ok now => exact .quiesceStarted hpc hm (eq_false_of_ne_true hf)

theorem receiveStep_step {now : Except String UtcTimestamp} (hs : s.receiveStep now = some s') :
    Step s (.receive now) s' := by
  unfold receiveStep at hs
  split at hs
  · rename_i message mailbox hpc hm
    cases hs
    cases message with
    | notifyQueued taskId handler => exact .notified hpc hm
    | cancel taskId handler =>
      simp only [handleMessage]
      split
      · exact .cancelRejected hpc hm (.inl rfl)
      · rename_i hf
        split
        · exact .cancelRejected hpc hm (.inr rfl)
        · rename_i hd
          exact .cancelStarted hpc hm (eq_false_of_ne_true hf) (eq_false_of_ne_true hd)
    | runnerEvent taskId event awaited => exact appendRunnerEvent_step hpc hm
    | runnerFinished taskId outcome => exact finishRunner_step hpc hm
    | finalizeDegraded recovery => exact finalizeDegraded_step hpc hm
    | quiesce => exact quiesce_step hpc hm
  · cases hs

theorem tickStep_step (hs : s.tickStep = some s') : Step s .tick s' := by
  unfold tickStep at hs
  split at hs
  · rename_i hpc
    cases hs
    exact .ticked hpc
  · cases hs

theorem endTurnStep_step (hs : s.endTurnStep = some s') : Step s .endTurn s' := by
  unfold endTurnStep at hs
  split at hs
  · rename_i hpc
    split at hs
    · rename_i hc
      cases hs
      exact .scanStarted hpc hc.2
    · cases hs
      exact .turnEnded hpc
  · cases hs

theorem loadTask_target {taskId : TaskId} {handler : Nat} {ok : Bool} {task : Task}
    (hpc : s.manager.pc = .cancelRead taskId handler) (h : s.loadTask taskId ok = .ok task) :
    s.CancelTarget taskId handler task := by
  unfold loadTask at h
  split at h
  · rename_i detail db hd
    cases h
    exact .inl ⟨hpc, detail, db, hd, rfl⟩
  all_goals cases h

theorem loadTask_error {taskId : TaskId} {ok : Bool} {error : TaskManagerError}
    (h : s.loadTask taskId ok = .error error) : error = .taskNotFound ∨ error = .store := by
  unfold loadTask at h
  split at h
  · cases h
  · cases h; exact .inl rfl
  · cases h; exact .inr rfl

/-- A cancel that is answered with anything but the two invariant errors. -/
theorem replyCancel_step {l : Label} {taskId : TaskId} {handler : Nat} {reply : CancelReply}
    (hc : s.manager.pc.answering = true) (h : ∀ message, reply ≠ .error (.invariant message)) :
    Step s l (s.replyCancel taskId handler reply) :=
  .cancelAnswered hc (fun he => absurd he (h _)) fun he => absurd he (h _)

theorem readStep_step {ok : Bool} (hs : s.readStep ok = some s') : Step s (.read ok) s' := by
  unfold readStep at hs
  split at hs
  · rename_i hpc
    split at hs
    · rename_i snapshot db hsnap
      cases hs
      exact .scanned hpc hsnap
    · cases hs
      exact .scanStopped (.inl hpc)
  · rename_i taskId handler hpc
    have hc : s.manager.pc.answering = true := by rw [hpc]; rfl
    split at hs
    · rename_i error hload
      cases hs
      refine replyCancel_step hc fun message => ?_
      rcases loadTask_error hload with rfl | rfl <;> simp
    · rename_i task hload
      split at hs
      · cases hs
        exact .cancelQueued hpc
      · rename_i hq
        cases hs
        exact cancelCurrent_step (loadTask_target hpc hload) fun _ => hq
  · rename_i taskId handler hpc
    have hc : s.manager.pc.answering = true := by rw [hpc]; rfl
    split at hs
    · rename_i error hload
      cases hs
      refine replyCancel_step hc fun message => ?_
      rcases loadTask_error hload with rfl | rfl <;> simp
    · cases hs
      exact replyCancel_step hc nofun
  · cases hs

theorem claimStep_step {senderOpen : Bool} (hs : s.claimStep senderOpen = some s') :
    Step s (.claim senderOpen) s' := by
  unfold claimStep at hs
  split at hs
  · rename_i repositories hpc
    cases hs
    exact .scanStopped (.inr ⟨_, _, hpc⟩)
  · rename_i task rest repositories hpc
    split at hs
    · rename_i ha
      cases hs
      exact .claimSkipped hpc (.inl ha)
    · rename_i ha
      split at hs
      · cases hs
        exact .scanStopped (.inr ⟨_, _, hpc⟩)
      · rename_i hp
        split at hs
        · cases hs
          exact .scanStopped (.inr ⟨_, _, hpc⟩)
        · rename_i hf
          split at hs
          · rename_i hnone
            cases hs
            exact .claimSkipped hpc (.inr hnone)
          · cases hs
            exact .claimStarted hpc ha hp (eq_false_of_ne_true hf)
  · rename_i task repository rest repositories hpc
    split at hs
    · cases hs
      exact .claimAborted hpc (.inl rfl)
    · rename_i hf
      split at hs
      · cases hs
        exact .claimChecked hpc (.inl ⟨rfl, rfl⟩) (eq_false_of_ne_true hf)
      · cases hs
        exact .claimAborted hpc (.inl rfl)
  · rename_i task repository rest repositories hpc
    split at hs
    · cases hs
      exact .claimAborted hpc (.inr rfl)
    · rename_i hf
      cases hs
      exact .claimChecked hpc (.inr ⟨rfl, rfl⟩) (eq_false_of_ne_true hf)
  · cases hs

theorem sendStep_step (hs : s.sendStep = some s') : Step s .send s' := by
  unfold sendStep at hs
  split at hs
  · rename_i job hpc
    cases hs
    exact .sent hpc
  · cases hs

theorem resumeStep_step (hs : s.resumeStep = some s') : Step s .resume s' := by
  unfold resumeStep at hs
  split at hs
  · rename_i task repository rest repositories reply hpc
    cases hs
    unfold finishClaim
    split
    · split
      · rename_i hf
        exact .claimDropped hpc hf
      · rename_i hf
        exact .claimCommitted hpc (eq_false_of_ne_true hf)
    · exact .claimConflict hpc
    · rename_i hne _
      exact .claimFailed hpc fun current eventId he => hne current eventId he
  · rename_i task repository rest repositories current hpc
    cases hs
    exact .claimSpawned hpc
  · rename_i taskId handler reply hpc
    have hc : s.manager.pc.answering = true := by rw [hpc]; rfl
    cases hs
    unfold finishCancel
    split
    · exact replyCancel_step hc nofun
    · refine cancelCurrent_step (.inr hpc) ?_
      rw [hpc]
      nofun
    · exact replyCancel_step hc nofun
  · rename_i taskId event awaited reply hpc
    cases hs
    unfold finishAppend
    split
    · exact .appended hpc rfl
    · exact .appended hpc rfl
    · rename_i h₁ h₂
      refine .appendFailed hpc fun outcome he => ?_
      cases outcome with
      | applied eventId => exact h₁ eventId he
      | notRunning current => exact h₂ current he
  · rename_i taskId outcome reply hpc
    cases hs
    unfold finishFinish
    split
    · exact .finished hpc
    · rename_i hne
      exact .finishFailed hpc hne
  · rename_i now reply hpc
    cases hs
    unfold finishQuiesce
    split
    · refine .quiesced hpc fun recovery active he => ?_
      cases he
      rfl
    · exact .quiesced hpc nofun
  · cases hs

theorem runnerStep_step {taskId : TaskId} {action : RunnerAction}
    (hs : s.runnerStep taskId action = some s') : Step s (.runner taskId action) s' := by
  unfold runnerStep at hs
  split at hs
  · rename_i runner hr
    split at hs
    · rename_i hp
      cases hs
      exact .acted hr hp rfl
    · cases hs
  · cases hs

theorem reportStep_step {taskId : TaskId} (hs : s.reportStep taskId = some s') :
    Step s (.report taskId) s' := by
  unfold reportStep at hs
  split at hs
  · rename_i runner hr
    split at hs
    · rename_i event hp
      cases hs
      exact .reportedEvent hr hp
    · rename_i result hp
      cases hs
      exact .reportedEnd hr hp
    all_goals cases hs
  · cases hs

theorem strayStep_step {taskId : TaskId} {event : RunnerEvent}
    (hs : s.strayStep taskId event = some s') : Step s (.stray taskId event) s' := by
  unfold strayStep at hs
  split at hs
  · rename_i h
    obtain ⟨runner, hr⟩ := Option.isSome_iff_exists.1 h
    cases hs
    exact .strayed hr
  · cases hs

/-- `ensure_not_quiescing` stops the coordinator or lets it go on. -/
theorem ensureNotQuiescing_step {now : Except String UtcTimestamp} {ok : Bool}
    {pc pc' : CoordinatorPc} (hc : s.coordinator = some pc) (hw : pc ≠ .waiting)
    (hf : ∀ r, pc ≠ .finalizing r) (hm : CoordinatorMove pc pc') :
    Step s (.coordinator now ok) (s.ensureNotQuiescing pc') := by
  unfold ensureNotQuiescing
  split
  · rename_i hq
    exact .coordinatorStopped hc hw hf hq
  · exact .coordinatorMoved hc hm

theorem coordinatorStep_step {now : Except String UtcTimestamp} {ok : Bool}
    (hs : s.coordinatorStep now ok = some s') : Step s (.coordinator now ok) s' := by
  unfold coordinatorStep at hs
  split at hs
  · rename_i hc
    split at hs
    · cases hs
      exact ensureNotQuiescing_step hc nofun nofun (.recover _)
    · cases hs
      exact ensureNotQuiescing_step hc nofun nofun .refused
  · rename_i t hc
    cases hs
    exact .recoverySent hc
  · rename_i hc
    cases hs
    exact .coordinatorMoved hc .failed
  · rename_i recovery hc
    cases hs
    exact .coordinatorMoved hc (.recovered _)
  · rename_i hc
    split at hs
    · cases hs
      exact .coordinatorMoved hc .retry
    · split at hs
      · rename_i hq
        cases hs
        exact .coordinatorStopped hc nofun nofun hq
      · cases hs
  · rename_i recovery hc
    cases hs
    exact ensureNotQuiescing_step hc nofun nofun (.flushing _)
  · rename_i recovery hc
    cases hs
    cases ok
    · exact .coordinatorMoved hc (.unflushed _)
    · exact .coordinatorMoved hc (.flushed _)
  · rename_i recovery hc
    split at hs
    · cases hs
      exact .coordinatorMoved hc (.reflush _)
    · split at hs
      · rename_i hq
        cases hs
        exact .coordinatorStopped hc nofun nofun hq
      · cases hs
  · rename_i recovery hc
    cases hs
    exact ensureNotQuiescing_step hc nofun nofun (.finalize _)
  · rename_i recovery hc
    cases hs
    exact .finalizeSent hc
  all_goals cases hs

theorem shutdownStep_step (hs : s.shutdownStep = some s') : Step s .shutdown s' := by
  unfold shutdownStep at hs
  split at hs
  · rename_i hpc
    split at hs
    · rename_i hi
      cases hs
      exact .waitedIdle hpc hi
    · cases hs
  · rename_i hpc
    cases hs
    exact .quiesceSent hpc
  · rename_i recovery active hpc
    cases hs
    exact .shutdownMoved (hpc ▸ .durable recovery active)
  · rename_i active hpc
    cases hs
    exact .shutdownMoved (hpc ▸ .frozen active)
  · rename_i error hpc
    cases hs
    exact .shutdownMoved (hpc ▸ .rejected error)
  · rename_i active hpc
    cases hs
    exact .frozen hpc
  · rename_i active hpc
    cases hs
    exact .rootCancelled hpc
  · rename_i outcome id active hpc
    cases hs
    exact .tokenCancelled hpc
  · rename_i outcome hpc
    cases hs
    exact .shutdownMoved (hpc ▸ .cancelled outcome)
  · rename_i outcome hpc
    cases hs
    exact .shutdownMoved (hpc ▸ .finished outcome)
  all_goals cases hs

theorem shutdownTimeoutStep_step (hs : s.shutdownTimeoutStep = some s') :
    Step s .shutdownTimeout s' := by
  unfold shutdownTimeoutStep at hs
  split at hs
  · rename_i hpc
    cases hs
    exact .shutdownMoved (hpc ▸ .timeoutIdle)
  · rename_i hpc
    cases hs
    exact .shutdownMoved (hpc ▸ .timeoutSend)
  · rename_i hpc
    cases hs
    exact .shutdownMoved (hpc ▸ .timeoutWait)
  · cases hs

theorem shutdownPanicStep_step (hs : s.shutdownPanicStep = some s') :
    Step s .shutdownPanic s' := by
  unfold shutdownPanicStep at hs
  split at hs
  · cases hs
  · cases hs
  · rename_i hn hd
    cases hs
    exact .panicked hn hd

end Primary

/-- **Inversion.** Whatever the transition function does is a `Step`. -/
theorem step_of_next {s s' : Primary} {l : Label} (hs : next s l = some s') : Step s l s' := by
  cases l with
  | enter request =>
    simp only [next] at hs
    split at hs
    · rename_i h
      cases hs
      exact .enter h.1 h.2
    · cases hs
  | handler h => exact Primary.handlerStep_step hs
  | drop h => exact Primary.dropHandler_step hs
  | requestQuit =>
    simp only [next] at hs
    split at hs
    · cases hs
    · rename_i h
      cases hs
      exact .requestQuit (by simpa using h)
  | write env repositoryId fails => exact Primary.writeStep_step hs
  | receive now => exact Primary.receiveStep_step hs
  | tick => exact Primary.tickStep_step hs
  | endTurn => exact Primary.endTurnStep_step hs
  | read ok => exact Primary.readStep_step hs
  | claim senderOpen => exact Primary.claimStep_step hs
  | send => exact Primary.sendStep_step hs
  | resume => exact Primary.resumeStep_step hs
  | runner taskId action => exact Primary.runnerStep_step hs
  | report taskId => exact Primary.reportStep_step hs
  | stray taskId event => exact Primary.strayStep_step hs
  | coordinator now ok => exact Primary.coordinatorStep_step hs
  | startShutdown =>
    simp only [next] at hs
    split at hs
    · rename_i h
      cases hs
      exact .shutdownStarted h (.inl rfl)
    · cases hs
  | shutdown => exact Primary.shutdownStep_step hs
  | shutdownTimeout => exact Primary.shutdownTimeoutStep_step hs
  | shutdownPanic => exact Primary.shutdownPanicStep_step hs
  | forceCleanup =>
    simp only [next] at hs
    split at hs
    · rename_i h
      cases hs
      exact .shutdownStarted h (.inr rfl)
    · cases hs

/-! ## What a command does -/

/-- What an executed command replies to its sender and does to the board. -/
inductive Wrote (b : Board) : StoreWriterOperation → Option Reply → Board → Prop
  | nothing {operation : StoreWriterOperation} : Wrote b operation none b
  | done {operation : Operation} {reply : Reply} {b' : Board} : Effect b operation reply b' →
    Wrote b (.task operation) (some reply) b'

theorem execute_grows {operation : StoreWriterOperation} {env : Env} {repositoryId : RepositoryId}
    {fails : Bool} {db db' : Db} {outcome : Option StoreWriterOperationOutcome}
    {log : List TaskEvent} (h : Reflects db log)
    (hx : operation.execute env repositoryId fails db = (outcome, db')) :
    (∃ new, Reflects db' (log ++ new)) ∧
      Wrote db.board operation (outcome.bind (·.reply?)) db'.board := by
  have same : Reflects db (log ++ []) := by rwa [List.append_nil]
  cases operation with
  | registerRepository input =>
    simp only [StoreWriterOperation.execute] at hx
    split at hx
    · cases hx
      exact ⟨⟨[], same⟩, .nothing⟩
    · split at hx
      · rename_i out db'' hok
        obtain ⟨repositories, rfl⟩ := registerRepository_frame hok
        cases hx
        exact ⟨⟨[], same.repositories repositories⟩, .nothing⟩
      · cases hx
        exact ⟨⟨[], same⟩, .nothing⟩
  | task operation =>
    simp only [StoreWriterOperation.execute, Call.run] at hx
    cases fails with
    | true =>
      cases hx
      exact ⟨⟨[], same⟩, .nothing⟩
    | false =>
      cases hop : operation.tx env db with
      | error error =>
        simp only [hop] at hx
        cases hx
        exact ⟨⟨[], same⟩, .nothing⟩
      | ok r =>
        obtain ⟨reply, db''⟩ := r
        simp only [hop] at hx
        cases hx
        obtain ⟨new, hg⟩ := operation_reflects h hop
        exact ⟨⟨new, hg.reflects⟩, .done (operation_effect h hop)⟩

theorem execute_wrote {operation : StoreWriterOperation} {env : Env} {repositoryId : RepositoryId}
    {fails : Bool} {db db' : Db} {outcome : Option StoreWriterOperationOutcome}
    (h : ∃ log, Reflects db log)
    (hx : operation.execute env repositoryId fails db = (outcome, db')) :
    (∃ log, Reflects db' log) ∧ Wrote db.board operation (outcome.bind (·.reply?)) db'.board := by
  obtain ⟨log, h⟩ := h
  obtain ⟨⟨new, hgrown⟩, hwrote⟩ := execute_grows h hx
  exact ⟨⟨log ++ new, hgrown⟩, hwrote⟩

namespace Wrote

variable {b b' : Board} {operation : StoreWriterOperation} {reply : Option Reply}

theorem started (h : Wrote b operation reply b') {id : TaskId} (hs : b.Started id) :
    b'.Started id := by
  cases h with
  | nothing => exact hs
  | done he => exact he.started hs

theorem not_running (h : Wrote b operation reply b') {id : TaskId}
    (hr : b.status id ≠ some .running)
    (hop : operation ≠ .task (.transitionWithEvent id .queued .running)) :
    b'.status id ≠ some .running := by
  cases h with
  | nothing => exact hr
  | done he => exact he.not_running hr fun heq => hop (congrArg _ heq)

theorem settled (h : Wrote b operation reply b') {id : TaskId} (hs : b.Settled id) :
    b'.verdict id = b.verdict id ∧ b'.panel id = b.panel id := by
  cases h with
  | nothing => exact ⟨rfl, rfl⟩
  | done he => exact he.settled hs

theorem conflict {id : TaskId} {expected : TaskStatus} {transition : TaskTransition} {current : Task}
    (h : Wrote b (.task (.transitionWithEvent id expected transition))
      (some (.transition (.conflict current))) b') :
    b' = b ∧ current.id = id ∧ b.status id = some current.status ∧ current.status ≠ expected := by
  cases h with
  | done he =>
    cases he with
    | conflict hid hst hne => exact ⟨rfl, hid, hst, hne⟩

theorem applied {id : TaskId} {expected : TaskStatus} {transition : TaskTransition} {task : Task}
    {eventId : EventId} (h : Wrote b (.task (.transitionWithEvent id expected transition))
      (some (.transition (.applied task eventId))) b') :
    b.status id = some expected ∧ task.id = id ∧ task.status = transition.next ∧
      b' = b.set id ⟨transition.next, transition.failure⟩ := by
  cases h with
  | done he =>
    cases he with
    | applied hst hc hid hnext => exact ⟨hst, hid, hnext, rfl⟩

/-- A finish that got a reply has found or left the task not running. -/
theorem finished {id : TaskId} {outcome : RunnerOutcome} {reply : TransitionOutcome}
    (h : Wrote b (.task (.transitionWithEvent id .running outcome.transition))
      (some (.transition reply)) b') : b'.status id ≠ some .running := by
  cases reply with
  | applied task eventId =>
    obtain ⟨-, -, -, rfl⟩ := h.applied
    rw [Board.set_status, if_pos rfl]
    cases outcome <;> simp [RunnerOutcome.transition, TaskTransition.next]
  | conflict current =>
    obtain ⟨rfl, -, hst, hne⟩ := h.conflict
    rw [hst]
    simpa using hne

/-- A transition that was not applied leaves the board alone. -/
theorem unapplied {id : TaskId} {expected : TaskStatus} {transition : TaskTransition}
    {reply : Option Reply} (h : Wrote b (.task (.transitionWithEvent id expected transition)) reply b')
    (hn : ∀ task eventId, reply ≠ some (.transition (.applied task eventId))) : b' = b := by
  cases h with
  | nothing => rfl
  | done he =>
    cases he with
    | conflict => rfl
    | applied => exact absurd rfl (hn _ _)

/-- Only an append adds a panel event. -/
theorem panel (h : Wrote b operation reply b')
    (hop : ∀ id payload, operation ≠ .task (.appendRunningEvent id payload)) :
    b'.panel = b.panel := by
  cases h with
  | nothing => rfl
  | done he =>
    funext id
    rcases he.panel id with heq | ⟨payload, eventId, rfl, -⟩
    · exact heq
    · exact absurd rfl (hop id payload)

theorem appended {id : TaskId} {payload : TaskEventPayload} {eventId : EventId}
    (h : Wrote b (.task (.appendRunningEvent id payload)) (some (.append (.applied eventId))) b') :
    b' = b.push id (.ofPayload payload) := by
  cases h with
  | done he =>
    cases he with
    | appended => rfl

/-- The reply `NotRunning` is true. -/
theorem notRunning {id : TaskId} {payload : TaskEventPayload} {current : Task}
    (h : Wrote b (.task (.appendRunningEvent id payload)) (some (.append (.notRunning current))) b') :
    b.status id ≠ some .running := by
  cases h with
  | done he =>
    cases he with
    | notRunning hst hne =>
      rw [hst]
      simpa using hne

/-- An append that was not applied leaves the board alone. -/
theorem unappended {id : TaskId} {payload : TaskEventPayload} {reply : Option Reply}
    (h : Wrote b (.task (.appendRunningEvent id payload)) reply b')
    (hn : ∀ eventId, reply ≠ some (.append (.applied eventId))) : b' = b := by
  cases h with
  | nothing => rfl
  | done he =>
    cases he with
    | notRunning => rfl
    | appended => exact absurd rfl (hn _)

/-- After a recovery no task is running. -/
theorem recovered {recovery : RecoveryOutcome}
    (h : Wrote b operation (some (.recovery recovery)) b') (id : TaskId) :
    b'.status id ≠ some .running := by
  cases h with
  | done he =>
    cases he with
    | recovered =>
      rw [Board.recover_status]
      cases hs : b.status id with
      | none => simp
      | some status => cases status <;> simp [isIncomplete]

end Wrote

end CodingAgent.L4.App
