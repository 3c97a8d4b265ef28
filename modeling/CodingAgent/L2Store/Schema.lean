import CodingAgent.L1Domain.Event
import Mathlib.Data.List.Sort

/-!
# Tables, rows and transactions (`coding-agent-store`)

The tables of `migrations/0001_initial.sql`, the
SQL statements the store issues on them, and the two record decoders
(`task_from_record`, `event_from_record`).

A transaction is a function of the database that either fails, which drops
the state it had reached (the rollback), or returns a value and the new
database (the commit). The statements are total functions of the tables;
constraint violations fail. A fault of SQLite itself can fail a transaction
at any statement; since every failure leaves the database as it was, such
faults are one extra outcome of the whole call (`L2Store.Ops`).

The text of a payload is represented by its JSON shape (`PayloadJson`): the
placeholder `'{}'`, or an object with the one field the payload kind has.
-/
namespace CodingAgent.L2.Store
open CodingAgent.L1.Domain

/-- mirrors crates/coding-agent-store/src/lib.rs:22-64 -/
inductive StoreError where
  | database
  | domain (error : DomainError)
  | invalidRepositoryId
  | invalidTaskId
  | invalidClientRequestId
  | invalidTaskStatus (value : String)
  | invalidEventKind (value : String)
  | invalidEventSchemaVersion (version : Int)
  | json
  | illegalTransition (source target : TaskStatus)
  | idempotencyConflict
  | taskNotFound
  | taskNotRetryable
  | invalidRunningEvent
  | taskAttemptOverflow
  | invariantViolation (message : String)
  deriving DecidableEq, Repr

/-- A row of `repositories`.
mirrors crates/coding-agent-store/migrations/0001_initial.sql:6-17 -/
structure RepositoryRow where
  id : RepositoryId
  selectedPath : PathText
  displayName : String
  gitRoot : PathText
  cargoWorkspaceRoot : PathText
  gitIdentityKey : String
  cargoIdentityKey : String
  createdAt : UtcTimestamp
  lastOpenedAt : UtcTimestamp
  deriving DecidableEq, Repr

/-- A row of `tasks`.
mirrors crates/coding-agent-store/migrations/0001_initial.sql:19-32 -/
structure TaskRow where
  id : TaskId
  clientRequestId : ClientRequestId
  repositoryId : RepositoryId
  prompt : String
  status : TaskStatus
  attempt : Nat
  retryOf : Option TaskId
  createdAt : UtcTimestamp
  startedAt : Option UtcTimestamp
  finishedAt : Option UtcTimestamp
  lastEventId : Nat
  failureJson : Option TaskFailure
  deriving DecidableEq, Repr

/-- The shapes `payload_json` writes; `empty` is the placeholder `'{}'`.
mirrors crates/coding-agent-store/src/tasks.rs:457-471 -/
inductive PayloadJson where
  | empty
  | task (task : Task)
  | plan (plan : PlanSnapshot)
  | entry (entry : ActivityEntry)
  | diff (diff : DiffSnapshot)
  | tests (tests : TestSnapshot)
  deriving DecidableEq, Repr

/-- A row of `task_events`.
mirrors crates/coding-agent-store/migrations/0001_initial.sql:34-41 -/
structure EventRow where
  id : Nat
  schemaVersion : Nat
  taskId : TaskId
  kind : TaskEventKind
  payloadJson : PayloadJson
  createdAt : UtcTimestamp
  deriving DecidableEq, Repr

/-- The database: the registered repositories, the two tables in rowid
order, and the `sqlite_sequence` entry of `task_events`. -/
structure Db where
  repositories : List RepositoryRow
  tasks : List TaskRow
  events : List EventRow
  seq : Nat
  deriving DecidableEq, Repr

/-- The store after `migrate`, with the given repositories registered. -/
def Db.migrated (repositories : List RepositoryRow) : Db := ⟨repositories, [], [], 0⟩

/-- What a call reads from outside the database: the clock, fresh UUIDs, and
how far above the sequence AUTOINCREMENT places the next rowid (it promises
only an id above every id ever used). -/
structure Env where
  nowUtc : Int
  taskId : TaskId
  clientRequestId : ClientRequestId
  rowidGap : Nat → Nat

abbrev Tx (α : Type) := StateT Db (Except StoreError) α

def Tx.fail {α : Type} (error : StoreError) : Tx α := fun _ => .error error

/-- Runs a computation that does not touch the database. -/
def Tx.lift {α : Type} (value : Except StoreError α) : Tx α := fun db =>
  match value with
  | .ok a => .ok (a, db)
  | .error error => .error error

def domain {α : Type} : Except DomainError α → Except StoreError α
  | .ok a => .ok a
  | .error error => .error (.domain error)

theorem tx_bind_ok {α β : Type} {x : Tx α} {f : α → Tx β} {db : Db} {r : β × Db} :
    (x >>= f) db = .ok r ↔ ∃ a db', x db = .ok (a, db') ∧ f a db' = .ok r := by
  show (StateT.bind x f) db = .ok r ↔ _
  simp only [StateT.bind, bind, Except.bind]
  cases h : x db with
  | error e => simp
  | ok p => obtain ⟨a, db'⟩ := p; simp

theorem tx_bind_of_ok {α β : Type} {x : Tx α} {f : α → Tx β} {db db' : Db} {a : α}
    (h : x db = .ok (a, db')) : (x >>= f) db = f a db' := by
  show (StateT.bind x f) db = _
  simp only [StateT.bind, bind, Except.bind, h]

theorem tx_bind_of_error {α β : Type} {x : Tx α} {f : α → Tx β} {db : Db} {error : StoreError}
    (h : x db = .error error) : (x >>= f) db = .error error := by
  show (StateT.bind x f) db = _
  simp only [StateT.bind, bind, Except.bind, h]

@[simp] theorem tx_pure {α : Type} (a : α) (db : Db) : (pure a : Tx α) db = .ok (a, db) := rfl

@[simp] theorem tx_fail {α : Type} (e : StoreError) (db : Db) :
    (Tx.fail e : Tx α) db = .error e := rfl

@[simp] theorem tx_lift_ok {α : Type} {v : Except StoreError α} {db : Db} {r : α × Db} :
    Tx.lift v db = .ok r ↔ v = .ok r.1 ∧ r.2 = db := by
  unfold Tx.lift
  cases v with
  | error e => simp
  | ok a =>
    obtain ⟨b, db'⟩ := r
    simp only [Except.ok.injEq, Prod.mk.injEq]
    exact ⟨fun ⟨h, h'⟩ => ⟨h, h'.symm⟩, fun ⟨h, h'⟩ => ⟨h, h'.symm⟩⟩

@[simp] theorem domain_ok {α : Type} {x : Except DomainError α} {a : α} :
    domain x = .ok a ↔ x = .ok a := by
  cases x <;> simp [domain]

/-! ## Statements -/

/-- `SELECT … WHERE p` with `fetch_optional`. -/
def selectTask (p : TaskRow → Bool) : Tx (Option TaskRow) := fun db => .ok (db.tasks.find? p, db)

/-- `UPDATE tasks SET … WHERE p`; the number of rows affected. -/
def updateTasks (p : TaskRow → Bool) (set : TaskRow → TaskRow) : Tx Nat := fun db =>
  .ok ((db.tasks.filter p).length,
    { db with tasks := db.tasks.map fun r => if p r then set r else r })

/-- `INSERT INTO tasks`: the primary key, `client_request_id UNIQUE`,
`retry_of UNIQUE` (a NULL is distinct from every value), the two references
and `CHECK (attempt > 0)`. -/
def insertTask (row : TaskRow) : Tx Unit := fun db =>
  if db.tasks.any (fun r => r.id = row.id || r.clientRequestId = row.clientRequestId ||
      (row.retryOf.isSome && r.retryOf = row.retryOf)) then .error .database
  else if !db.repositories.any fun r => r.id = row.repositoryId then .error .database
  else if row.retryOf.any (fun source => !db.tasks.any fun r => r.id = source) then .error .database
  else if row.attempt = 0 then .error .database
  else .ok ((), { db with tasks := db.tasks ++ [row] })

/-- `INSERT INTO task_events` and `last_insert_rowid`; `task_id` references
`tasks`, and a table without a rowid left is full. -/
def insertEventRow (env : Env) (taskId : TaskId) (kind : TaskEventKind) (payload : PayloadJson)
    (createdAt : UtcTimestamp) : Tx Nat := fun db =>
  if !db.tasks.any fun r => r.id = taskId then .error .database
  else
    let id := db.seq + 1 + env.rowidGap db.seq
    if 2 ^ 63 ≤ id then .error .database
    else .ok (id, { db with events := db.events ++ [⟨id, 1, taskId, kind, payload, createdAt⟩]
                            seq := id })

/-- `UPDATE task_events SET payload_json = ? WHERE p`. -/
def updateEvents (p : EventRow → Bool) (payload : PayloadJson) : Tx Nat := fun db =>
  .ok ((db.events.filter p).length,
    { db with events := db.events.map fun r => if p r then { r with payloadJson := payload } else r })

/-! ## Records -/

/-- mirrors crates/coding-agent-store/src/repositories.rs:104-114 -/
def repositoryFromRecord (row : RepositoryRow) : Except StoreError Repository :=
  match CanonicalPath.tryFromCanonical (Utf8.encode row.selectedPath.text.toList),
    CanonicalPath.tryFromCanonical (Utf8.encode row.gitRoot.text.toList),
    CanonicalPath.tryFromCanonical (Utf8.encode row.cargoWorkspaceRoot.text.toList) with
  | .ok selectedPath, .ok gitRoot, .ok cargoWorkspaceRoot =>
    .ok { id := row.id, selectedPath, displayName := row.displayName, gitRoot, cargoWorkspaceRoot,
          createdAt := row.createdAt, lastOpenedAt := row.lastOpenedAt }
  | .error error, _, _ | _, .error error, _ | _, _, .error error => .error (.domain error)

/-- What a row is read as. -/
def RepositoryRow.repository (row : RepositoryRow) : Repository where
  id := row.id
  selectedPath := .ofText row.selectedPath
  displayName := row.displayName
  gitRoot := .ofText row.gitRoot
  cargoWorkspaceRoot := .ofText row.cargoWorkspaceRoot
  createdAt := row.createdAt
  lastOpenedAt := row.lastOpenedAt

/-- Every row can be read. -/
theorem repositoryFromRecord_eq (row : RepositoryRow) :
    repositoryFromRecord row = .ok row.repository := by
  unfold repositoryFromRecord
  rw [CanonicalPath.tryFromCanonical_text, CanonicalPath.tryFromCanonical_text,
    CanonicalPath.tryFromCanonical_text]
  rfl

/-- mirrors crates/coding-agent-store/src/tasks.rs:368-401 -/
def taskFromRecord (row : TaskRow) : Except StoreError Task :=
  if 2 ^ 32 ≤ row.attempt then .error (.domain .invalidTaskAttempt)
  else
    match EventId.new row.lastEventId with
    | .error error => .error (.domain error)
    | .ok lastEventId => domain <| Task.tryFromStored
        { id := row.id, clientRequestId := row.clientRequestId, repositoryId := row.repositoryId,
          prompt := row.prompt, status := row.status, attempt := UInt32.ofNat row.attempt,
          retryOf := row.retryOf, createdAt := row.createdAt, startedAt := row.startedAt,
          finishedAt := row.finishedAt, lastEventId := lastEventId, failure := row.failureJson }

/-- The row a `Task` is stored as. -/
def TaskRow.ofTask (task : Task) : TaskRow :=
  { id := task.id, clientRequestId := task.clientRequestId, repositoryId := task.repositoryId,
    prompt := task.prompt, status := task.status, attempt := task.attempt.toNat, retryOf := task.retryOf,
    createdAt := task.createdAt, startedAt := task.startedAt, finishedAt := task.finishedAt,
    lastEventId := task.lastEventId.get, failureJson := task.failure }

/-- Decoding succeeds exactly on the rows of well-formed tasks. -/
theorem taskFromRecord_ok_iff {row : TaskRow} {t : Task} : taskFromRecord row = .ok t ↔
    row = TaskRow.ofTask t ∧ t.WellFormed := by
  unfold taskFromRecord
  constructor
  · intro h
    split at h
    · cases h
    · rename_i hlt
      have hattempt : row.attempt = (UInt32.ofNat row.attempt).toNat := by
        rw [UInt32.toNat_ofNat_of_lt' (Nat.not_le.1 hlt)]
      cases hid : EventId.new row.lastEventId with
      | error e => rw [hid] at h; cases h
      | ok id =>
        rw [hid] at h
        simp only [domain_ok, Task.tryFromStored_ok_iff] at h
        obtain ⟨hw, rfl⟩ := h
        have hget : row.lastEventId = id.get := by
          unfold EventId.new at hid
          split at hid
          · cases hid; rfl
          · cases hid
        refine ⟨?_, hw⟩
        cases row
        simp only [TaskRow.ofTask] at hget hattempt ⊢
        rw [hget, ← hattempt]
  · rintro ⟨rfl, hw⟩
    have hlt : ¬2 ^ 32 ≤ (TaskRow.ofTask t).attempt := Nat.not_le.2 t.attempt.toNat_lt
    rw [if_neg hlt]
    simp only [TaskRow.ofTask, EventId.new_get, domain_ok, UInt32.ofNat_toNat]
    exact Task.tryFromStored_ok_iff.2 ⟨hw, rfl⟩

/-- mirrors crates/coding-agent-store/src/tasks.rs:457-471 -/
def payloadJson : TaskEventPayload → PayloadJson
  | .taskQueued task | .taskStarted task | .taskCompleted task | .taskFailed task
  | .taskCancelled task | .taskInterrupted task => .task task
  | .planUpdated plan => .plan plan
  | .activityAppended entry => .entry entry
  | .diffUpdated diff => .diff diff
  | .testUpdated tests => .tests tests

/-- mirrors crates/coding-agent-store/src/tasks.rs:583-592 -/
def lifecycleKind : TaskStatus → TaskEventKind
  | .queued => .taskQueued
  | .running => .taskStarted
  | .completed => .taskCompleted
  | .failed => .taskFailed
  | .cancelled => .taskCancelled
  | .interrupted => .taskInterrupted

/-- mirrors crates/coding-agent-store/src/tasks.rs:566-581 -/
def lifecyclePayload (kind : TaskEventKind) (task : Task) : Except StoreError TaskEventPayload :=
  match kind with
  | .taskQueued => .ok (.taskQueued task)
  | .taskStarted => .ok (.taskStarted task)
  | .taskCompleted => .ok (.taskCompleted task)
  | .taskFailed => .ok (.taskFailed task)
  | .taskCancelled => .ok (.taskCancelled task)
  | .taskInterrupted => .ok (.taskInterrupted task)
  | .planUpdated | .activityAppended | .diffUpdated | .testUpdated =>
    .error (.invariantViolation "panel event passed to lifecycle payload builder")

/-- What the lifecycle payload builder returns: the payload of that kind with
that row. -/
theorem lifecyclePayload_ok {kind : TaskEventKind} {task : Task} {p : TaskEventPayload}
    (h : lifecyclePayload kind task = .ok p) :
    p.kind = kind ∧ p.task? = some task ∧ payloadJson p = .task task := by
  cases kind <;> simp [lifecyclePayload] at h <;> subst h <;>
    exact ⟨rfl, rfl, rfl⟩

/-- mirrors crates/coding-agent-store/src/projection.rs:254-278 -/
def lifecycleTask (payload : PayloadJson) (taskId : TaskId) (eventId : EventId)
    (expectedStatus : TaskStatus) : Except StoreError Task :=
  match payload with
  | .task stored =>
    match Task.tryFromStored stored with
    | .error error => .error (.domain error)
    | .ok task =>
      if task.id ≠ taskId then
        .error (.invariantViolation "lifecycle payload task ID does not match event task ID")
      else if task.lastEventId ≠ eventId then
        .error (.invariantViolation "lifecycle payload last event ID does not match event ID")
      else if task.status ≠ expectedStatus then
        .error (.invariantViolation "lifecycle payload task status does not match event kind")
      else .ok task
  | _ => .error .json

/-- mirrors crates/coding-agent-store/src/projection.rs:214-252 -/
def payloadFromValue (kind : TaskEventKind) (payload : PayloadJson) (taskId : TaskId)
    (eventId : EventId) : Except StoreError TaskEventPayload :=
  match kind with
  | .taskQueued => (lifecycleTask payload taskId eventId .queued).map .taskQueued
  | .taskStarted => (lifecycleTask payload taskId eventId .running).map .taskStarted
  | .planUpdated => match payload with
    | .plan plan => .ok (.planUpdated plan)
    | _ => .error .json
  | .activityAppended => match payload with
    | .entry entry => .ok (.activityAppended entry)
    | _ => .error .json
  | .diffUpdated => match payload with
    | .diff diff => .ok (.diffUpdated diff)
    | _ => .error .json
  | .testUpdated => match payload with
    | .tests tests => .ok (.testUpdated tests)
    | _ => .error .json
  | .taskCompleted => (lifecycleTask payload taskId eventId .completed).map .taskCompleted
  | .taskFailed => (lifecycleTask payload taskId eventId .failed).map .taskFailed
  | .taskCancelled => (lifecycleTask payload taskId eventId .cancelled).map .taskCancelled
  | .taskInterrupted => (lifecycleTask payload taskId eventId .interrupted).map .taskInterrupted

/-- mirrors crates/coding-agent-store/src/projection.rs:194-212 -/
def eventFromRecord (row : EventRow) : Except StoreError TaskEvent :=
  if row.schemaVersion ≠ 1 then .error (.invalidEventSchemaVersion row.schemaVersion)
  else
    match EventId.new row.id with
    | .error error => .error (.domain error)
    | .ok eventId =>
      (payloadFromValue row.kind row.payloadJson row.taskId eventId).map fun payload =>
        { id := eventId, schemaVersion := row.schemaVersion, taskId := row.taskId, payload,
          createdAt := row.createdAt }

/-- The row an event is stored as. -/
def EventRow.ofEvent (event : TaskEvent) : EventRow :=
  { id := event.id.get, schemaVersion := event.schemaVersion, taskId := event.taskId,
    kind := event.kind, payloadJson := Store.payloadJson event.payload, createdAt := event.createdAt }

/-- What `lifecycle_task` checks, and the schema version. -/
structure EventOk (event : TaskEvent) : Prop where
  schema : event.schemaVersion = 1
  task : ∀ task, event.payload.task? = some task → task.WellFormed ∧ task.id = event.taskId ∧
    task.lastEventId = event.id ∧ event.kind = lifecycleKind task.status

/-- Decoding undoes encoding on every event that meets the decoder's checks. -/
theorem eventFromRecord_ofEvent {event : TaskEvent} (h : EventOk event) :
    eventFromRecord (EventRow.ofEvent event) = .ok event := by
  have hid : EventId.new event.id.get = .ok event.id := EventId.new_get _
  obtain ⟨id, schema, taskId, payload, createdAt⟩ := event
  have hs : schema = 1 := h.schema
  subst hs
  have key : ∀ task status, payload.task? = some task → lifecycleKind status = payload.kind →
      lifecycleTask (.task task) taskId id status = .ok task := by
    intro task status hp hk
    obtain ⟨hw, hi, hl, hst⟩ := h.task task hp
    have hstatus : task.status = status := by
      have : lifecycleKind task.status = lifecycleKind status := hst.symm.trans hk.symm
      revert this
      cases task.status <;> cases status <;> simp [lifecycleKind]
    have hok : Task.tryFromStored task = .ok task := Task.tryFromStored_ok_iff.2 ⟨hw, rfl⟩
    simp only at hi hl
    simp [lifecycleTask, hok, hi, hl, hstatus]
  simp only [eventFromRecord, EventRow.ofEvent, TaskEvent.kind, ne_eq, not_true_eq_false, if_false,
    hid]
  cases payload with
  | taskQueued task => simp [payloadFromValue, payloadJson, TaskEventPayload.kind, Except.map,
      key task .queued rfl rfl]
  | taskStarted task => simp [payloadFromValue, payloadJson, TaskEventPayload.kind, Except.map,
      key task .running rfl rfl]
  | planUpdated plan => rfl
  | activityAppended entry => rfl
  | diffUpdated diff => rfl
  | testUpdated tests => rfl
  | taskCompleted task => simp [payloadFromValue, payloadJson, TaskEventPayload.kind, Except.map,
      key task .completed rfl rfl]
  | taskFailed task => simp [payloadFromValue, payloadJson, TaskEventPayload.kind, Except.map,
      key task .failed rfl rfl]
  | taskCancelled task => simp [payloadFromValue, payloadJson, TaskEventPayload.kind, Except.map,
      key task .cancelled rfl rfl]
  | taskInterrupted task => simp [payloadFromValue, payloadJson, TaskEventPayload.kind, Except.map,
      key task .interrupted rfl rfl]

end CodingAgent.L2.Store
