import CodingAgent.L2Store.Schema

/-!
# The five writing operations (`coding-agent-store/src/tasks.rs`)

`create_task`, `retry_task`, `transition_with_event`, `append_running_event`
and `recover_incomplete`, statement by statement, and runs of any number of
them over one database.

* `appendLifecycleEvent_ok`: what the shared insert / bump / rewrite sequence
  leaves behind when it succeeds.
* `Call.run`, `exec`: one call with its environment, and a run of calls.
-/
namespace CodingAgent.L2.Store
open CodingAgent.L1.Domain

/-- mirrors crates/coding-agent-store/src/tasks.rs:25-32 -/
inductive TaskTransition where
  | running
  | completed
  | failed (failure : TaskFailure)
  | cancelled
  | interrupted (failure : TaskFailure)
  deriving DecidableEq, Repr

namespace TaskTransition

/-- mirrors crates/coding-agent-store/src/tasks.rs:35-43 -/
def next : TaskTransition → TaskStatus
  | .running => .running
  | .completed => .completed
  | .failed _ => .failed
  | .cancelled => .cancelled
  | .interrupted _ => .interrupted

/-- mirrors crates/coding-agent-store/src/tasks.rs:45-50 -/
def failure : TaskTransition → Option TaskFailure
  | .failed failure | .interrupted failure => some failure
  | .running | .completed | .cancelled => none

end TaskTransition

inductive CreateTaskOutcome where
  | created (task : Task) (eventId : EventId)
  | existing (task : Task)
  deriving DecidableEq, Repr

/-- mirrors crates/coding-agent-store/src/tasks.rs:60-64 -/
def CreateTaskOutcome.task : CreateTaskOutcome → Task
  | .created task _ | .existing task => task

inductive RetryTaskOutcome where
  | created (task : Task) (eventId : EventId)
  | existing (task : Task)
  deriving DecidableEq, Repr

/-- mirrors crates/coding-agent-store/src/tasks.rs:74-78 -/
def RetryTaskOutcome.task : RetryTaskOutcome → Task
  | .created task _ | .existing task => task

inductive TransitionOutcome where
  | applied (task : Task) (eventId : EventId)
  | conflict (current : Task)
  deriving DecidableEq, Repr

inductive AppendEventOutcome where
  | applied (eventId : EventId)
  | notRunning (current : Task)
  deriving DecidableEq, Repr

/-- mirrors crates/coding-agent-store/src/tasks.rs:93-99 -/
structure RecoveryOutcome where
  interruptedCount : Nat
  firstEventId : Option EventId
  lastEventId : Option EventId
  highWatermark : Nat
  deriving DecidableEq, Repr

/-! ## Helpers -/

/-- mirrors crates/coding-agent-store/src/tasks.rs:594-600 -/
def ensureExactlyOne (rows : Nat) (message : String) : Tx Unit :=
  if rows = 1 then pure () else Tx.fail (.invariantViolation message)

/-- mirrors crates/coding-agent-store/src/tasks.rs:602-604 -/
def currentTimestamp (env : Env) : Tx UtcTimestamp :=
  Tx.lift (domain (UtcTimestamp.new env.nowUtc))

/-- `SELECT … FROM tasks WHERE p` decoded. -/
def loadTaskWhere (p : TaskRow → Bool) : Tx (Option Task) := do
  match ← selectTask p with
  | none => pure none
  | some record =>
    let task ← Tx.lift (taskFromRecord record)
    pure (some task)

/-- mirrors crates/coding-agent-store/src/tasks.rs:353-366 -/
def loadTask (taskId : TaskId) : Tx (Option Task) := loadTaskWhere fun r => r.id = taskId

/-- mirrors crates/coding-agent-store/src/tasks.rs:482-495 -/
def loadTaskByClientRequest (clientRequestId : ClientRequestId) : Tx (Option Task) :=
  loadTaskWhere fun r => r.clientRequestId = clientRequestId

/-- mirrors crates/coding-agent-store/src/tasks.rs:497-510 -/
def loadRetryChild (sourceId : TaskId) : Tx (Option Task) :=
  loadTaskWhere fun r => r.retryOf = some sourceId

/-- `Option::ok_or`. -/
def okOr {α : Type} (value : Option α) (error : StoreError) : Tx α :=
  match value with
  | some a => pure a
  | none => Tx.fail error

/-- mirrors crates/coding-agent-store/src/tasks.rs:473-480 -/
def latestEventCursor : Tx Nat := fun db =>
  .ok ((db.events.map (·.id)).foldl max 0, db)

/-- mirrors crates/coding-agent-store/src/tasks.rs:546-564 -/
def insertEvent (env : Env) (taskId : TaskId) (kind : TaskEventKind) (payload : PayloadJson)
    (createdAt : UtcTimestamp) : Tx EventId := do
  let rowid ← insertEventRow env taskId kind payload createdAt
  Tx.lift (domain (EventId.new rowid))

/-- mirrors crates/coding-agent-store/src/tasks.rs:512-544 -/
def appendLifecycleEvent (env : Env) (taskId : TaskId) (kind : TaskEventKind)
    (createdAt : UtcTimestamp) : Tx (Task × EventId) := do
  let eventId ← insertEvent env taskId kind .empty createdAt
  let updated ← updateTasks (fun r => r.id = taskId) fun r => { r with lastEventId := eventId.get }
  ensureExactlyOne updated "lifecycle event did not update exactly one task"
  let task ← okOr (← loadTask taskId) .taskNotFound
  let payload ← Tx.lift (lifecyclePayload kind task)
  let updated ← updateEvents (fun r => r.id = eventId.get && r.payloadJson = .empty)
    (payloadJson payload)
  ensureExactlyOne updated "lifecycle payload did not update exactly one placeholder"
  pure (task, eventId)

/-! ## Operations -/

/-- The row both inserts write. -/
def queuedRow (id : TaskId) (clientRequestId : ClientRequestId) (repositoryId : RepositoryId)
    (prompt : String) (attempt : Nat) (retryOf : Option TaskId) (now : UtcTimestamp) : TaskRow :=
  { id, clientRequestId, repositoryId, prompt, status := .queued, attempt, retryOf,
    createdAt := now, startedAt := none, finishedAt := none, lastEventId := 0,
    failureJson := none }

/-- mirrors crates/coding-agent-store/src/tasks.rs:102-137 -/
def createTask (env : Env) (input : NewTask) : Tx CreateTaskOutcome := do
  let input ← Tx.lift
    (domain (NewTask.tryNew input.clientRequestId input.repositoryId input.prompt))
  match ← loadTaskByClientRequest input.clientRequestId with
  | some existing =>
    if existing.repositoryId ≠ input.repositoryId ∨ existing.prompt ≠ input.prompt then
      Tx.fail .idempotencyConflict
    else pure (.existing existing)
  | none =>
    let now ← currentTimestamp env
    insertTask (queuedRow env.taskId input.clientRequestId input.repositoryId input.prompt 1 none
      now)
    let (task, eventId) ← appendLifecycleEvent env env.taskId .taskQueued now
    pure (.created task eventId)

/-- mirrors crates/coding-agent-store/src/tasks.rs:139-181 -/
def retryTask (env : Env) (sourceId : TaskId) : Tx RetryTaskOutcome := do
  let source ← okOr (← loadTask sourceId) .taskNotFound
  if source.status.isRetryable = false then Tx.fail .taskNotRetryable
  else
    match ← loadRetryChild sourceId with
    | some existing => pure (.existing existing)
    | none =>
      if 2 ^ 32 ≤ source.attempt.toNat + 1 then Tx.fail .taskAttemptOverflow
      else
        let now ← currentTimestamp env
        insertTask (queuedRow env.taskId env.clientRequestId source.repositoryId source.prompt
          (source.attempt.toNat + 1) (some source.id) now)
        let (task, eventId) ← appendLifecycleEvent env env.taskId .taskQueued now
        pure (.created task eventId)

/-- The `SET` clauses of the two updates of `transition_with_event`. -/
def transitionRow (transition : TaskTransition) (now : UtcTimestamp) (r : TaskRow) : TaskRow :=
  match transition with
  | .running =>
    { r with status := .running, startedAt := some now, finishedAt := none, failureJson := none }
  | .completed | .failed _ | .cancelled | .interrupted _ =>
    { r with status := transition.next, finishedAt := some now, failureJson := transition.failure }

/-- mirrors crates/coding-agent-store/src/tasks.rs:183-251 -/
def transitionWithEvent (env : Env) (taskId : TaskId) (expected : TaskStatus)
    (transition : TaskTransition) : Tx TransitionOutcome :=
  let next := transition.next
  if expected.canTransitionTo next = false then Tx.fail (.illegalTransition expected next)
  else do
    let now ← currentTimestamp env
    let updated ← updateTasks (fun r => r.id = taskId && r.status = expected)
      (transitionRow transition now)
    if updated = 0 then
      let current ← okOr (← loadTask taskId) .taskNotFound
      pure (.conflict current)
    else
      ensureExactlyOne updated "task transition updated multiple rows"
      let (task, eventId) ← appendLifecycleEvent env taskId (lifecycleKind next) now
      pure (.applied task eventId)

/-- mirrors crates/coding-agent-store/src/tasks.rs:253-298 -/
def appendRunningEvent (env : Env) (taskId : TaskId) (payload : TaskEventPayload) :
    Tx AppendEventOutcome :=
  if payload.kind.isPanel = false then Tx.fail .invalidRunningEvent
  else do
    let current ← okOr (← loadTask taskId) .taskNotFound
    if current.status ≠ .running then pure (.notRunning current)
    else
      let now ← currentTimestamp env
      let eventId ← insertEvent env taskId payload.kind (payloadJson payload) now
      let updated ← updateTasks (fun r => r.id = taskId && r.status = .running)
        fun r => { r with lastEventId := eventId.get }
      ensureExactlyOne updated "running event did not update exactly one task"
      pure (.applied eventId)

/-- `ORDER BY created_at, id`. -/
def recoveryOrder (a b : TaskRow) : Prop :=
  a.createdAt.nanos < b.createdAt.nanos ∨
    (a.createdAt.nanos = b.createdAt.nanos ∧ a.id.uuid.toNat ≤ b.id.uuid.toNat)

instance : DecidableRel recoveryOrder := fun a b =>
  inferInstanceAs (Decidable (a.createdAt.nanos < b.createdAt.nanos ∨
    (a.createdAt.nanos = b.createdAt.nanos ∧ a.id.uuid.toNat ≤ b.id.uuid.toNat)))

/-- `status IN ('queued', 'running')`. -/
def isIncomplete (status : TaskStatus) : Bool := status = .queued || status = .running

/-- mirrors crates/coding-agent-store/src/tasks.rs:306-312 -/
def incompleteTaskIds : Tx (List TaskId) := fun db =>
  .ok (((db.tasks.filter fun r => isIncomplete r.status).insertionSort recoveryOrder).map (·.id),
    db)

/-- The `SET` clause of `recover_incomplete`. -/
def recoveredRow (now : UtcTimestamp) (failure : TaskFailure) (r : TaskRow) : TaskRow :=
  { r with status := .interrupted, finishedAt := some now, failureJson := some failure }

/-- The loop of `recover_incomplete`.
mirrors crates/coding-agent-store/src/tasks.rs:316-340 -/
def recoverTasks (env : Env) (now : UtcTimestamp) (failure : TaskFailure) :
    List TaskId → Tx (List EventId)
  | [] => pure []
  | taskId :: taskIds => do
    let updated ← updateTasks (fun r => r.id = taskId && isIncomplete r.status)
      (recoveredRow now failure)
    ensureExactlyOne updated "recovery did not update exactly one task"
    let (_, eventId) ← appendLifecycleEvent env taskId .taskInterrupted now
    let eventIds ← recoverTasks env now failure taskIds
    pure (eventId :: eventIds)

/-- mirrors crates/coding-agent-store/src/tasks.rs:300-350 -/
def recoverIncomplete (env : Env) (now : UtcTimestamp) (failure : TaskFailure) :
    Tx RecoveryOutcome := do
  let taskIds ← incompleteTaskIds
  let eventIds ← recoverTasks env now failure taskIds
  let highWatermark ← latestEventCursor
  pure { interruptedCount := eventIds.length, firstEventId := eventIds.head?,
         lastEventId := eventIds.getLast?, highWatermark }

/-! ## Calls -/

inductive Operation where
  | createTask (input : NewTask)
  | retryTask (sourceId : TaskId)
  | transitionWithEvent (taskId : TaskId) (expected : TaskStatus) (transition : TaskTransition)
  | appendRunningEvent (taskId : TaskId) (payload : TaskEventPayload)
  | recoverIncomplete (now : UtcTimestamp) (failure : TaskFailure)
  deriving DecidableEq, Repr

inductive Reply where
  | create (outcome : CreateTaskOutcome)
  | retry (outcome : RetryTaskOutcome)
  | transition (outcome : TransitionOutcome)
  | append (outcome : AppendEventOutcome)
  | recovery (outcome : RecoveryOutcome)
  deriving DecidableEq, Repr

def Operation.tx (env : Env) : Operation → Tx Reply
  | .createTask input => Reply.create <$> Store.createTask env input
  | .retryTask sourceId => Reply.retry <$> Store.retryTask env sourceId
  | .transitionWithEvent taskId expected transition =>
    Reply.transition <$> Store.transitionWithEvent env taskId expected transition
  | .appendRunningEvent taskId payload =>
    Reply.append <$> Store.appendRunningEvent env taskId payload
  | .recoverIncomplete now failure => Reply.recovery <$> Store.recoverIncomplete env now failure

/-- One call. With `fault`, SQLite fails it and the transaction rolls back. -/
structure Call where
  env : Env
  op : Operation
  fault : Bool

def Call.run (call : Call) (db : Db) : Except StoreError Reply × Db :=
  if call.fault then (.error .database, db)
  else
    match call.op.tx call.env db with
    | .ok (reply, db') => (.ok reply, db')
    | .error error => (.error error, db)

def exec (db : Db) (calls : List Call) : Db := calls.foldl (fun db call => (call.run db).2) db

@[simp] theorem exec_nil (db : Db) : exec db [] = db := rfl

theorem exec_append (db : Db) (calls more : List Call) :
    exec db (calls ++ more) = exec (exec db calls) more :=
  List.foldl_append

theorem exec_snoc (db : Db) (calls : List Call) (call : Call) :
    exec db (calls ++ [call]) = (call.run (exec db calls)).2 := by
  rw [exec_append]; rfl

theorem Call.run_ok {call : Call} {db : Db} {reply : Reply} (h : (call.run db).1 = .ok reply) :
    call.op.tx call.env db = .ok (reply, (call.run db).2) := by
  unfold Call.run at h ⊢
  split at h
  · cases h
  · rename_i hfault
    rw [if_neg hfault]
    split at h
    · rename_i hok
      cases h
      rw [hok]
    · cases h

theorem Call.run_error {call : Call} {db : Db} {error : StoreError} (hfault : call.fault = false)
    (h : call.op.tx call.env db = .error error) : call.run db = (.error error, db) := by
  rw [Call.run, hfault, h]
  rfl

theorem Call.run_reply {call : Call} {db db' : Db} {reply : Reply} (hfault : call.fault = false)
    (h : call.op.tx call.env db = .ok (reply, db')) : call.run db = (.ok reply, db') := by
  rw [Call.run, hfault, h]
  rfl

/-! ## What the helpers leave behind -/

@[simp] theorem tx_map_ok {α β : Type} {f : α → β} {x : Tx α} {db : Db} {r : β × Db} :
    (f <$> x) db = .ok r ↔ ∃ a, x db = .ok (a, r.2) ∧ f a = r.1 := by
  show (StateT.map f x) db = .ok r ↔ _
  simp only [StateT.map, bind, Except.bind]
  cases x db with
  | error e => simp
  | ok p =>
    obtain ⟨a, db'⟩ := p
    obtain ⟨b, db''⟩ := r
    simp only [pure, Except.pure, Except.ok.injEq, Prod.mk.injEq]
    constructor
    · rintro ⟨rfl, rfl⟩; exact ⟨a, ⟨rfl, rfl⟩, rfl⟩
    · rintro ⟨a', ⟨rfl, rfl⟩, rfl⟩; exact ⟨rfl, rfl⟩

theorem tx_map_of_ok {α β : Type} {f : α → β} {x : Tx α} {db db' : Db} {a : α}
    (h : x db = .ok (a, db')) : (f <$> x) db = .ok (f a, db') := tx_map_ok.2 ⟨a, h, rfl⟩

theorem tx_map_of_error {α β : Type} {f : α → β} {x : Tx α} {db : Db} {error : StoreError}
    (h : x db = .error error) : (f <$> x) db = .error error := by
  show (StateT.map f x) db = _
  simp only [StateT.map, bind, Except.bind, h]

theorem updateTasks_ok {p : TaskRow → Bool} {f : TaskRow → TaskRow} {db db' : Db} {n : Nat} :
    updateTasks p f db = .ok (n, db') ↔ n = (db.tasks.filter p).length ∧
      db' = { db with tasks := db.tasks.map fun r => if p r then f r else r } := by
  simp only [updateTasks, Except.ok.injEq, Prod.mk.injEq]
  exact ⟨fun ⟨h, h'⟩ => ⟨h.symm, h'.symm⟩, fun ⟨h, h'⟩ => ⟨h.symm, h'.symm⟩⟩

theorem updateEvents_ok {p : EventRow → Bool} {payload : PayloadJson} {db db' : Db} {n : Nat} :
    updateEvents p payload db = .ok (n, db') ↔ n = (db.events.filter p).length ∧
      db' = { db with
        events := db.events.map fun r => if p r then { r with payloadJson := payload } else r } := by
  simp only [updateEvents, Except.ok.injEq, Prod.mk.injEq]
  exact ⟨fun ⟨h, h'⟩ => ⟨h.symm, h'.symm⟩, fun ⟨h, h'⟩ => ⟨h.symm, h'.symm⟩⟩

theorem ensureExactlyOne_ok {rows : Nat} {message : String} {db db' : Db} {u : Unit} :
    ensureExactlyOne rows message db = .ok (u, db') ↔ rows = 1 ∧ db' = db := by
  unfold ensureExactlyOne
  split
  · rename_i h
    simp only [tx_pure, Except.ok.injEq, Prod.mk.injEq, true_and]
    exact ⟨fun h' => ⟨h, h'.symm⟩, fun h' => h'.2.symm⟩
  · rename_i h
    simp [h]

theorem okOr_ok {α : Type} {v : Option α} {e : StoreError} {db db' : Db} {a : α} :
    okOr v e db = .ok (a, db') ↔ v = some a ∧ db' = db := by
  cases v with
  | none => simp [okOr]
  | some b =>
    simp only [okOr, tx_pure, Except.ok.injEq, Prod.mk.injEq, Option.some.injEq]
    exact ⟨fun ⟨h, h'⟩ => ⟨h, h'.symm⟩, fun ⟨h, h'⟩ => ⟨h, h'.symm⟩⟩

theorem loadTaskWhere_ok {p : TaskRow → Bool} {db db' : Db} {v : Option Task} :
    loadTaskWhere p db = .ok (v, db') ↔ db' = db ∧
      ((v = none ∧ db.tasks.find? p = none) ∨
        ∃ row t, v = some t ∧ db.tasks.find? p = some row ∧ taskFromRecord row = .ok t) := by
  simp only [loadTaskWhere, tx_bind_ok, selectTask, Except.ok.injEq, Prod.mk.injEq]
  constructor
  · rintro ⟨a, db₁, ⟨rfl, rfl⟩, h⟩
    cases hf : db.tasks.find? p with
    | none =>
      rw [hf] at h
      simp only [tx_pure, Except.ok.injEq, Prod.mk.injEq] at h
      exact ⟨h.2.symm, .inl ⟨h.1.symm, rfl⟩⟩
    | some row =>
      rw [hf] at h
      simp only [tx_bind_ok, tx_lift_ok, tx_pure, Except.ok.injEq, Prod.mk.injEq] at h
      obtain ⟨t, db₂, ⟨ht, rfl⟩, rfl, rfl⟩ := h
      exact ⟨rfl, .inr ⟨row, t, rfl, rfl, ht⟩⟩
  · rintro ⟨rfl, ⟨rfl, hf⟩ | ⟨row, t, rfl, hf, ht⟩⟩
    · exact ⟨_, _, ⟨rfl, rfl⟩, by rw [hf]; rfl⟩
    · refine ⟨_, _, ⟨rfl, rfl⟩, ?_⟩
      rw [hf]
      simp only [tx_bind_ok, tx_lift_ok, tx_pure]
      exact ⟨t, _, ⟨ht, rfl⟩, rfl⟩

/-- A load that finds a task finds the row it is stored as. -/
theorem loadTaskWhere_some {p : TaskRow → Bool} {db db' : Db} {t : Task}
    (h : loadTaskWhere p db = .ok (some t, db')) :
    db' = db ∧ db.tasks.find? p = some (TaskRow.ofTask t) ∧ t.WellFormed := by
  obtain ⟨rfl, ⟨hn, -⟩ | ⟨row, t', ht', hf, hok⟩⟩ := loadTaskWhere_ok.1 h
  · cases hn
  · cases ht'
    obtain ⟨rfl, hw⟩ := taskFromRecord_ok_iff.1 hok
    exact ⟨rfl, hf, hw⟩

theorem loadTaskWhere_none {p : TaskRow → Bool} {db db' : Db}
    (h : loadTaskWhere p db = .ok (none, db')) : db' = db ∧ db.tasks.find? p = none := by
  obtain ⟨rfl, ⟨-, hf⟩ | ⟨row, t', ht', -⟩⟩ := loadTaskWhere_ok.1 h
  · exact ⟨rfl, hf⟩
  · cases ht'

theorem insertEvent_ok {env : Env} {taskId : TaskId} {kind : TaskEventKind} {payload : PayloadJson}
    {now : UtcTimestamp} {db db' : Db} {eventId : EventId}
    (h : insertEvent env taskId kind payload now db = .ok (eventId, db')) :
    db.seq < eventId.get ∧ db' = { db with
      events := db.events ++ [⟨eventId.get, 1, taskId, kind, payload, now⟩], seq := eventId.get } := by
  simp only [insertEvent, tx_bind_ok, insertEventRow, tx_lift_ok, domain_ok] at h
  obtain ⟨rowid, db₁, hins, hid, rfl⟩ := h
  split at hins
  · cases hins
  · split at hins
    · cases hins
    · cases hins
      simp only [EventId.new] at hid
      split at hid
      · cases hid
        exact ⟨show db.seq < db.seq + 1 + env.rowidGap db.seq by omega, rfl⟩
      · cases hid

/-- Rewriting the placeholder of the newest event. -/
theorem rewrite_placeholder {events : List EventRow} {seq : Nat} {row : EventRow}
    (hseq : ∀ r ∈ events, r.id ≤ seq) (hlt : seq < row.id) (he : row.payloadJson = .empty)
    (payload : PayloadJson) :
    (events ++ [row]).map (fun r => if (r.id = row.id && r.payloadJson = .empty : Bool) then
      { r with payloadJson := payload } else r) =
      events ++ [{ row with payloadJson := payload }] := by
  rw [List.map_append]
  congr 1
  · rw [List.map_congr_left (g := id), List.map_id]
    intro r hr
    have : r.id ≠ row.id := by have := hseq r hr; omega
    simp [this]
  · simp [he]

/-- **The spec of `append_lifecycle_event`.** -/
theorem appendLifecycleEvent_ok {env : Env} {id : TaskId} {kind : TaskEventKind}
    {now : UtcTimestamp} {db db' : Db} {task : Task} {eventId : EventId}
    (h : appendLifecycleEvent env id kind now db = .ok ((task, eventId), db'))
    (hseq : ∀ r ∈ db.events, r.id ≤ db.seq) :
    ∃ payload, lifecyclePayload kind task = .ok payload ∧ db.seq < eventId.get ∧
      db' = { db with
        tasks := db.tasks.map fun r => if r.id = id then { r with lastEventId := eventId.get } else r
        events := db.events ++ [EventRow.ofEvent (TaskEvent.new eventId id payload now)]
        seq := eventId.get } ∧
      db'.tasks.find? (fun r => r.id = id) = some (TaskRow.ofTask task) ∧
      task.WellFormed := by
  simp only [appendLifecycleEvent, tx_bind_ok] at h
  obtain ⟨eid, db₁, h₁, n, db₂, h₂, _, db₃, h₃, found, db₄, h₄, t, db₅, h₅, payload, db₆, h₆, m, db₇,
    h₇, _, db₈, h₈, h₉⟩ := h
  simp only [tx_pure, Except.ok.injEq, Prod.mk.injEq] at h₉
  obtain ⟨⟨rfl, rfl⟩, rfl⟩ := h₉
  obtain ⟨hlt, rfl⟩ := insertEvent_ok h₁
  obtain ⟨-, rfl⟩ := updateTasks_ok.1 h₂
  obtain ⟨-, rfl⟩ := ensureExactlyOne_ok.1 h₃
  obtain ⟨rfl, rfl⟩ := okOr_ok.1 h₅
  obtain ⟨rfl, hf, hw⟩ := loadTaskWhere_some h₄
  obtain ⟨hp, rfl⟩ := tx_lift_ok.1 h₆
  obtain ⟨-, rfl⟩ := updateEvents_ok.1 h₇
  obtain ⟨-, rfl⟩ := ensureExactlyOne_ok.1 h₈
  obtain ⟨hkind, -, hjson⟩ := lifecyclePayload_ok hp
  refine ⟨payload, hp, hlt, ?_, ?_, hw⟩
  · simp only [decide_eq_true_eq, Db.mk.injEq, true_and, and_true]
    have hrw := rewrite_placeholder hseq (show db.seq < (EventRow.mk eid.get 1 id kind .empty now).id
      from hlt) rfl (payloadJson payload)
    rw [hrw]
    simp [EventRow.ofEvent, TaskEvent.new, TaskEvent.kind, hkind]
  · exact hf

/-- What an insert into `tasks` has checked. -/
structure Insertable (db : Db) (row : TaskRow) : Prop where
  id : ∀ r ∈ db.tasks, r.id ≠ row.id
  clientRequestId : ∀ r ∈ db.tasks, r.clientRequestId ≠ row.clientRequestId
  retryOf : ∀ r ∈ db.tasks, row.retryOf.isSome = true → r.retryOf ≠ row.retryOf
  repository : ∃ r ∈ db.repositories, r.id = row.repositoryId

theorem insertTask_ok {row : TaskRow} {db db' : Db} {u : Unit}
    (h : insertTask row db = .ok (u, db')) :
    Insertable db row ∧ db' = { db with tasks := db.tasks ++ [row] } := by
  unfold insertTask at h
  split at h
  · cases h
  · rename_i hunique
    split at h
    · cases h
    · rename_i hrepository
      split at h
      · cases h
      · split at h
        · cases h
        · cases h
          simp only [List.any_eq_true, Bool.or_eq_true, decide_eq_true_eq, Bool.and_eq_true,
            not_exists, not_and, not_or] at hunique
          refine ⟨⟨fun r hr => (hunique r hr).1.1, fun r hr => (hunique r hr).1.2,
            fun r hr => (hunique r hr).2, ?_⟩, rfl⟩
          simpa using hrepository

/-- **The spec of `create_task`.** -/
theorem createTask_ok {env : Env} {input : NewTask} {db db' : Db} {out : CreateTaskOutcome}
    (h : createTask env input db = .ok (out, db')) :
    ∃ new, NewTask.tryNew input.clientRequestId input.repositoryId input.prompt = .ok new ∧
      ((∃ t, out = .existing t ∧ db' = db ∧ TaskRow.ofTask t ∈ db.tasks ∧
          t.clientRequestId = new.clientRequestId ∧ t.repositoryId = new.repositoryId ∧
          t.prompt = new.prompt) ∨
        ∃ t eventId now db₁, out = .created t eventId ∧
          insertTask (queuedRow env.taskId new.clientRequestId new.repositoryId new.prompt 1 none
            now) db = .ok ((), db₁) ∧
          appendLifecycleEvent env env.taskId .taskQueued now db₁ = .ok ((t, eventId), db')) := by
  simp only [createTask, tx_bind_ok] at h
  obtain ⟨new, db₁, h₁, found, db₂, h₂, h₃⟩ := h
  obtain ⟨hnew, rfl⟩ := tx_lift_ok.1 h₁
  refine ⟨new, domain_ok.1 hnew, ?_⟩
  cases found with
  | some existing =>
    obtain ⟨rfl, hf, -⟩ := loadTaskWhere_some h₂
    simp only at h₃
    split at h₃
    · cases h₃
    · rename_i hsame
      simp only [tx_pure, Except.ok.injEq, Prod.mk.injEq] at h₃
      obtain ⟨rfl, rfl⟩ := h₃
      have hid := List.find?_some hf
      simp only [decide_eq_true_eq] at hid
      simp only [ne_eq, not_or, not_not] at hsame
      exact .inl ⟨existing, rfl, rfl, List.mem_of_find?_eq_some hf, hid, hsame.1, hsame.2⟩
  | none =>
    obtain ⟨rfl, -⟩ := loadTaskWhere_none h₂
    simp only [tx_bind_ok] at h₃
    obtain ⟨now, db₃, h₃, u, db₄, h₄, ⟨task, eventId⟩, db₅, h₅, h₆⟩ := h₃
    obtain ⟨-, rfl⟩ := tx_lift_ok.1 h₃
    simp only [tx_pure, Except.ok.injEq, Prod.mk.injEq] at h₆
    obtain ⟨rfl, rfl⟩ := h₆
    exact .inr ⟨task, eventId, now, db₄, rfl, h₄, h₅⟩

/-- **The spec of `retry_task`.** -/
theorem retryTask_ok {env : Env} {sourceId : TaskId} {db db' : Db} {out : RetryTaskOutcome}
    (h : retryTask env sourceId db = .ok (out, db')) :
    ∃ source, TaskRow.ofTask source ∈ db.tasks ∧ source.id = sourceId ∧
      source.status.isRetryable = true ∧
      ((∃ t, out = .existing t ∧ db' = db ∧ TaskRow.ofTask t ∈ db.tasks ∧
          t.retryOf = some sourceId) ∨
        ∃ t eventId now db₁, out = .created t eventId ∧
          insertTask (queuedRow env.taskId env.clientRequestId source.repositoryId source.prompt
            (source.attempt.toNat + 1) (some source.id) now) db = .ok ((), db₁) ∧
          appendLifecycleEvent env env.taskId .taskQueued now db₁ = .ok ((t, eventId), db')) := by
  simp only [retryTask, tx_bind_ok] at h
  obtain ⟨found, db₁, h₁, source, db₂, h₂, h₃⟩ := h
  obtain ⟨rfl, rfl⟩ := okOr_ok.1 h₂
  obtain ⟨rfl, hsource, -⟩ := loadTaskWhere_some h₁
  have hid := List.find?_some hsource
  simp only [decide_eq_true_eq] at hid
  split at h₃
  · cases h₃
  · rename_i hretryable
    refine ⟨source, List.mem_of_find?_eq_some hsource, hid, by simpa using hretryable, ?_⟩
    simp only [tx_bind_ok] at h₃
    obtain ⟨child, db₃, h₃, h₄⟩ := h₃
    cases child with
    | some existing =>
      obtain ⟨rfl, hf, -⟩ := loadTaskWhere_some h₃
      simp only [tx_pure, Except.ok.injEq, Prod.mk.injEq] at h₄
      obtain ⟨rfl, rfl⟩ := h₄
      have hchild := List.find?_some hf
      simp only [decide_eq_true_eq] at hchild
      exact .inl ⟨existing, rfl, rfl, List.mem_of_find?_eq_some hf, hchild⟩
    | none =>
      obtain ⟨rfl, -⟩ := loadTaskWhere_none h₃
      simp only at h₄
      split at h₄
      · cases h₄
      · simp only [tx_bind_ok] at h₄
        obtain ⟨now, db₄, h₄, u, db₅, h₅, ⟨task, eventId⟩, db₆, h₆, h₇⟩ := h₄
        obtain ⟨-, rfl⟩ := tx_lift_ok.1 h₄
        simp only [tx_pure, Except.ok.injEq, Prod.mk.injEq] at h₇
        obtain ⟨rfl, rfl⟩ := h₇
        exact .inr ⟨task, eventId, now, db₅, rfl, h₅, h₆⟩

end CodingAgent.L2.Store
