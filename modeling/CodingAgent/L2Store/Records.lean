import CodingAgent.L1Domain.Serde
import CodingAgent.L2Store.Projection

/-!
# Rows as the texts SQLite holds (`coding-agent-store`)

A row of the typed tables (`TaskRow`, `EventRow`) is stored as texts and
integers: identifiers and timestamps as their `Display`, statuses and kinds by
their names, failures and payloads as JSON. `record` is what the statements
bind; `Text.taskFromRecord` and `Text.eventFromRecord` are the two decoders on
those texts, and the reads of `projection.rs` are given again on them.

* `taskFromRecord_record`, `eventFromRecord_record`: on the texts of any row a
  decoder does what its typed version does on the row, errors included.
-/
namespace CodingAgent.L2.Store
open CodingAgent.L1.Domain
open Serde

/-! ## Names -/

/-- mirrors crates/coding-agent-store/src/tasks.rs:403-412 -/
def statusText : TaskStatus → String
  | .queued => "queued"
  | .running => "running"
  | .completed => "completed"
  | .failed => "failed"
  | .cancelled => "cancelled"
  | .interrupted => "interrupted"

/-- mirrors crates/coding-agent-store/src/tasks.rs:414-424 -/
def parseStatus (value : String) : Except StoreError TaskStatus :=
  if value = "queued" then .ok .queued
  else if value = "running" then .ok .running
  else if value = "completed" then .ok .completed
  else if value = "failed" then .ok .failed
  else if value = "cancelled" then .ok .cancelled
  else if value = "interrupted" then .ok .interrupted
  else .error (.invalidTaskStatus value)

@[simp] theorem parseStatus_text (status : TaskStatus) :
    parseStatus (statusText status) = .ok status := by
  cases status <;> simp [parseStatus, statusText]

/-- mirrors crates/coding-agent-store/src/tasks.rs:426-439 -/
def eventKindText : TaskEventKind → String
  | .taskQueued => "task.queued"
  | .taskStarted => "task.started"
  | .planUpdated => "plan.updated"
  | .activityAppended => "activity.appended"
  | .diffUpdated => "diff.updated"
  | .testUpdated => "test.updated"
  | .taskCompleted => "task.completed"
  | .taskFailed => "task.failed"
  | .taskCancelled => "task.cancelled"
  | .taskInterrupted => "task.interrupted"

/-- mirrors crates/coding-agent-store/src/tasks.rs:441-455 -/
def parseEventKind (value : String) : Except StoreError TaskEventKind :=
  if value = "task.queued" then .ok .taskQueued
  else if value = "task.started" then .ok .taskStarted
  else if value = "plan.updated" then .ok .planUpdated
  else if value = "activity.appended" then .ok .activityAppended
  else if value = "diff.updated" then .ok .diffUpdated
  else if value = "test.updated" then .ok .testUpdated
  else if value = "task.completed" then .ok .taskCompleted
  else if value = "task.failed" then .ok .taskFailed
  else if value = "task.cancelled" then .ok .taskCancelled
  else if value = "task.interrupted" then .ok .taskInterrupted
  else .error (.invalidEventKind value)

@[simp] theorem parseEventKind_text (kind : TaskEventKind) :
    parseEventKind (eventKindText kind) = .ok kind := by
  cases kind <;> simp [parseEventKind, eventKindText]

/-! ## Records -/

/-- mirrors crates/coding-agent-store/src/tasks.rs:10-23 -/
structure TaskRecord where
  id : String
  clientRequestId : String
  repositoryId : String
  prompt : String
  status : String
  attempt : Int
  retryOf : Option String
  createdAt : String
  startedAt : Option String
  finishedAt : Option String
  lastEventId : Int
  failureJson : Option String
  deriving DecidableEq, Repr

/-- mirrors crates/coding-agent-store/src/projection.rs:17 -/
structure EventRecord where
  id : Int
  schemaVersion : Int
  taskId : String
  kind : String
  payloadJson : String
  createdAt : String
  deriving DecidableEq, Repr

/-- The document of a payload. -/
def payloadDocument : PayloadJson → Json
  | .empty => .object []
  | .task task => .object [("task", serialize task)]
  | .plan plan => .object [("plan", serialize plan)]
  | .entry entry => .object [("entry", serialize entry)]
  | .diff diff => .object [("diff", serialize diff)]
  | .tests tests => .object [("tests", serialize tests)]

/-- `serde_json::to_string` of the tree `json!` builds. -/
def payloadText (payload : PayloadJson) : String := toText (value (payloadDocument payload))

/-- The columns of a row of `tasks`. -/
def TaskRow.record (row : TaskRow) : TaskRecord where
  id := row.id.text
  clientRequestId := row.clientRequestId.text
  repositoryId := row.repositoryId.text
  prompt := row.prompt
  status := statusText row.status
  attempt := row.attempt
  retryOf := row.retryOf.map (·.text)
  createdAt := row.createdAt.text
  startedAt := row.startedAt.map (·.text)
  finishedAt := row.finishedAt.map (·.text)
  lastEventId := row.lastEventId
  failureJson := row.failureJson.map fun failure => toText (serialize failure)

/-- The columns of a row of `task_events`. -/
def EventRow.record (row : EventRow) : EventRecord where
  id := row.id
  schemaVersion := row.schemaVersion
  taskId := row.taskId.text
  kind := eventKindText row.kind
  payloadJson := payloadText row.payloadJson
  createdAt := row.createdAt.text

/-! ## Decoders -/

namespace Text

/-- `Result` of a reader that either returns a value or is given an error. -/
def parsed {α : Type} (value : Option α) (error : StoreError) : Except StoreError α :=
  match value with
  | some a => .ok a
  | none => .error error

/-- `transpose` of a reader of an optional column. -/
def optionally {α β : Type} (read : α → Except StoreError β) : Option α → Except StoreError (Option β)
  | none => .ok none
  | some a => (read a).map some

/-- `EventId::new` on a column. -/
def eventId (value : Int) : Except StoreError EventId := domain (EventId.new value.toNat)

def taskId (text : String) : Except StoreError TaskId := parsed (TaskId.parse text) .invalidTaskId

def timestamp (text : String) : Except StoreError UtcTimestamp :=
  domain (UtcTimestamp.parseRfc3339 text)

/-- `serde_json::from_str` of a failure. -/
def failureFromStr (json : String) : Except StoreError TaskFailure :=
  parsed ((fromStrAs TaskFailure.layout.names json).bind deserialize) .json

/-- `u32::try_from` on a column. -/
def attempt (value : Int) : Except StoreError UInt32 :=
  if 0 ≤ value ∧ value < 2 ^ 32 then .ok (UInt32.ofNat value.toNat)
  else .error (.domain .invalidTaskAttempt)

/-- mirrors crates/coding-agent-store/src/tasks.rs:368-401 -/
def taskFromRecord (record : TaskRecord) : Except StoreError Task := do
  let attempt ← attempt record.attempt
  let failure ← optionally failureFromStr record.failureJson
  let id ← taskId record.id
  let clientRequestId ← parsed (ClientRequestId.parse record.clientRequestId)
    .invalidClientRequestId
  let repositoryId ← parsed (RepositoryId.parse record.repositoryId) .invalidRepositoryId
  let status ← parseStatus record.status
  let retryOf ← optionally taskId record.retryOf
  let createdAt ← timestamp record.createdAt
  let startedAt ← optionally timestamp record.startedAt
  let finishedAt ← optionally timestamp record.finishedAt
  let lastEventId ← eventId record.lastEventId
  domain (Task.tryFromStored
    { id, clientRequestId, repositoryId, prompt := record.prompt, status, attempt, retryOf,
      createdAt, startedAt, finishedAt, lastEventId, failure })

/-- mirrors crates/coding-agent-store/src/projection.rs:280-282 -/
def payloadField (payload : Json) (field : String) : Json :=
  match payload with
  | .object members => (member field members).getD .null
  | _ => .null

/-- mirrors crates/coding-agent-store/src/projection.rs:254-278 -/
def lifecycleTask (payload : Json) (taskId : TaskId) (eventId : EventId)
    (expectedStatus : TaskStatus) : Except StoreError Task := do
  let task ← parsed (deserialize (payloadField payload "task")) .json
  let task ← domain (Task.tryFromStored task)
  if task.id ≠ taskId then
    .error (.invariantViolation "lifecycle payload task ID does not match event task ID")
  else if task.lastEventId ≠ eventId then
    .error (.invariantViolation "lifecycle payload last event ID does not match event ID")
  else if task.status ≠ expectedStatus then
    .error (.invariantViolation "lifecycle payload task status does not match event kind")
  else .ok task

/-- mirrors crates/coding-agent-store/src/projection.rs:214-252 -/
def payloadFromValue (kind : TaskEventKind) (payload : Json) (taskId : TaskId)
    (eventId : EventId) : Except StoreError TaskEventPayload :=
  match kind with
  | .taskQueued => (lifecycleTask payload taskId eventId .queued).map .taskQueued
  | .taskStarted => (lifecycleTask payload taskId eventId .running).map .taskStarted
  | .planUpdated => (parsed (deserialize (payloadField payload "plan")) .json).map .planUpdated
  | .activityAppended =>
    (parsed (deserialize (payloadField payload "entry")) .json).map .activityAppended
  | .diffUpdated => (parsed (deserialize (payloadField payload "diff")) .json).map .diffUpdated
  | .testUpdated => (parsed (deserialize (payloadField payload "tests")) .json).map .testUpdated
  | .taskCompleted => (lifecycleTask payload taskId eventId .completed).map .taskCompleted
  | .taskFailed => (lifecycleTask payload taskId eventId .failed).map .taskFailed
  | .taskCancelled => (lifecycleTask payload taskId eventId .cancelled).map .taskCancelled
  | .taskInterrupted => (lifecycleTask payload taskId eventId .interrupted).map .taskInterrupted

/-- mirrors crates/coding-agent-store/src/projection.rs:194-212 -/
def eventFromRecord (record : EventRecord) : Except StoreError TaskEvent := do
  -- `u16::try_from` and the comparison fail with one error
  if record.schemaVersion ≠ 1 then
    .error (.invalidEventSchemaVersion record.schemaVersion)
  else
    let id ← eventId record.id
    let taskId ← taskId record.taskId
    let kind ← parseEventKind record.kind
    let payloadValue ← parsed ((fromStr record.payloadJson).map value) .json
    let payload ← payloadFromValue kind payloadValue taskId id
    let createdAt ← timestamp record.createdAt
    .ok { id, schemaVersion := 1, taskId, payload, createdAt }

/-! ## The decoders on the texts of a row -/

@[simp] theorem parsed_some {α : Type} (a : α) (error : StoreError) :
    parsed (some a) error = .ok a := rfl

@[simp] theorem optionally_map {α β : Type} {read : α → Except StoreError β} {write : β → α}
    (h : ∀ b, read (write b) = .ok b) (value : Option β) :
    optionally read (value.map write) = .ok value := by
  cases value with
  | none => rfl
  | some b =>
    show (read (write b)).map some = _
    rw [h]
    rfl

@[simp] theorem taskId_text (id : TaskId) : taskId id.text = .ok id := by
  rw [taskId, TaskId.parse_text, parsed_some]

@[simp] theorem timestamp_text (value : UtcTimestamp) : timestamp value.text = .ok value := by
  rw [timestamp, UtcTimestamp.parseRfc3339_text]
  rfl

@[simp] theorem failureFromStr_toText (failure : TaskFailure) :
    failureFromStr (toText (serialize failure)) = .ok failure := by
  have hread := TaskFailure.layout.deserialize_fromStrAs (by decide) failure
  rw [failureFromStr]
  exact (congrArg (parsed · .json) hread).trans (parsed_some failure .json)

theorem eventId_natCast (value : Nat) : eventId value = domain (EventId.new value) := by
  rw [eventId, Int.toNat_natCast]

theorem attempt_natCast (value : Nat) : attempt value =
    if 2 ^ 32 ≤ value then .error (.domain .invalidTaskAttempt) else .ok (UInt32.ofNat value) := by
  rw [attempt, Int.toNat_natCast]
  by_cases h : 2 ^ 32 ≤ value
  · rw [if_pos h, if_neg (by omega)]
  · rw [if_neg h, if_pos (by omega)]

theorem except_bind_ok {ε α β : Type} (a : α) (f : α → Except ε β) :
    ((.ok a : Except ε α) >>= f) = f a := rfl

/-- **`task_from_record`** on the texts of a row. -/
theorem taskFromRecord_record (row : TaskRow) :
    taskFromRecord row.record = Store.taskFromRecord row := by
  have hretry := optionally_map taskId_text row.retryOf
  have hstarted := optionally_map timestamp_text row.startedAt
  have hfinished := optionally_map timestamp_text row.finishedAt
  have hfailure := optionally_map failureFromStr_toText row.failureJson
  simp only [taskFromRecord, Store.taskFromRecord, TaskRow.record, hretry, hstarted, hfinished,
    hfailure, taskId_text, ClientRequestId.parse_text, RepositoryId.parse_text, parsed_some,
    parseStatus_text, timestamp_text, eventId_natCast, except_bind_ok, attempt_natCast]
  split
  · rfl
  · cases EventId.new row.lastEventId with
    | error error => rfl
    | ok lastEventId => rfl

/-! ## Payloads -/

theorem fromStr_payloadText (payload : PayloadJson) :
    (fromStr (payloadText payload)).map value = some (value (payloadDocument payload)) := by
  have hfits : Fits 5 (payloadDocument payload) := by
    cases payload with
    | empty => exact fun m hm => by cases hm
    | task t => exact fun m hm => List.mem_singleton.1 hm ▸ fits_serialize (by decide) t
    | plan p => exact fun m hm => List.mem_singleton.1 hm ▸ fits_serialize (by decide) p
    | entry e => exact fun m hm => List.mem_singleton.1 hm ▸ fits_serialize (by decide) e
    | diff d => exact fun m hm => List.mem_singleton.1 hm ▸ fits_serialize (by decide) d
    | tests t => exact fun m hm => List.mem_singleton.1 hm ▸ fits_serialize (by decide) t
  exact fromStr_value hfits (by decide)

/-- The one field of a payload document. -/
theorem payloadField_single (name field : String) (v : Json) :
    payloadField (value (.object [(name, v)])) field =
      if name = field then value v else .null := by
  show (member field [(name, value v)]).getD .null = _
  rw [member]
  split <;> rfl

theorem deserialize_value {α : Type} [Codec α] (a : α) :
    deserialize (value (serialize a)) = some a := deserialize_form true a

theorem lifecycleTask_document (payload : PayloadJson) (taskId : TaskId) (eventId : EventId)
    (status : TaskStatus) :
    lifecycleTask (value (payloadDocument payload)) taskId eventId status =
      Store.lifecycleTask payload taskId eventId status := by
  cases payload with
  | task t =>
    rw [lifecycleTask, payloadDocument, payloadField_single, if_pos rfl, deserialize_value]
    simp only [Store.lifecycleTask, parsed_some, except_bind_ok]
    cases Task.tryFromStored t <;> rfl
  | _ => rfl

/-- **`payload_from_value`** on the tree of a payload. -/
theorem payloadFromValue_document (kind : TaskEventKind) (payload : PayloadJson) (taskId : TaskId)
    (eventId : EventId) : payloadFromValue kind (value (payloadDocument payload)) taskId eventId =
      Store.payloadFromValue kind payload taskId eventId := by
  cases kind with
  | planUpdated =>
    cases payload with
    | plan p =>
      rw [payloadFromValue, payloadDocument, payloadField_single, if_pos rfl, deserialize_value]
      rfl
    | _ => rfl
  | activityAppended =>
    cases payload with
    | entry e =>
      rw [payloadFromValue, payloadDocument, payloadField_single, if_pos rfl, deserialize_value]
      rfl
    | _ => rfl
  | diffUpdated =>
    cases payload with
    | diff d =>
      rw [payloadFromValue, payloadDocument, payloadField_single, if_pos rfl, deserialize_value]
      rfl
    | _ => rfl
  | testUpdated =>
    cases payload with
    | tests t =>
      rw [payloadFromValue, payloadDocument, payloadField_single, if_pos rfl, deserialize_value]
      rfl
    | _ => rfl
  | _ => simp only [payloadFromValue, Store.payloadFromValue, lifecycleTask_document]

/-- **`event_from_record`** on the texts of a row. -/
theorem eventFromRecord_record (row : EventRow) :
    eventFromRecord row.record = Store.eventFromRecord row := by
  simp only [eventFromRecord, Store.eventFromRecord, EventRow.record, fromStr_payloadText,
    eventId_natCast, taskId_text, parseEventKind_text, parsed_some, timestamp_text, except_bind_ok,
    payloadFromValue_document]
  by_cases hschema : row.schemaVersion = 1
  · rw [if_neg (by omega), if_neg (by omega), hschema]
    cases EventId.new row.id with
    | error error => rfl
    | ok id =>
      show (Store.payloadFromValue row.kind row.payloadJson row.taskId id >>= fun payload => _) =
        (Store.payloadFromValue row.kind row.payloadJson row.taskId id).map _
      cases Store.payloadFromValue row.kind row.payloadJson row.taskId id <;> rfl
  · rw [if_pos (by omega), if_pos (by omega)]

end Text

end CodingAgent.L2.Store
