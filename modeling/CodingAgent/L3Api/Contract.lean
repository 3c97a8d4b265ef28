import CodingAgent.Core.Utf8
import CodingAgent.L1Domain.Serde

/-!
# Events on the wire (`coding-agent-api/src/{contract,sse}.rs`)

The document of a task event, its fields in the order the DTOs declare them
in, and the SSE frame that carries it. A DTO and its `Serialize` are one
function here; an untagged `TaskEventDto` is the envelope of its variant.

* `plain_taskEventDto`: a reader of JSON reads the document back.
* `taskEventDto_line`: it is written on one line.
-/
namespace CodingAgent.L3.Api
open CodingAgent.L1.Domain

/-! ## Documents -/

/-- mirrors crates/coding-agent-api/src/contract.rs:16-24 -/
def utcTimestampDto (value : UtcTimestamp) : Json := .string value.text

def uuidDto (value : Uuid) : Json := .string value.text

def optionDto {α : Type} (dto : α → Json) : Option α → Json
  | none => .null
  | some value => dto value

/-- mirrors crates/coding-agent-api/src/contract.rs:91-113 -/
def taskStatusDto : TaskStatus → String
  | .queued => "queued"
  | .running => "running"
  | .completed => "completed"
  | .failed => "failed"
  | .cancelled => "cancelled"
  | .interrupted => "interrupted"

/-- mirrors crates/coding-agent-api/src/contract.rs:115-130 -/
def taskFailureDto (value : TaskFailure) : Json :=
  .object [("code", .string value.code), ("message", .string value.message),
    ("retryable", .bool value.retryable)]

/-- mirrors crates/coding-agent-api/src/contract.rs:132-165 -/
def taskDto (value : Task) : Json :=
  .object [("id", uuidDto value.id.uuid), ("client_request_id", uuidDto value.clientRequestId.uuid),
    ("repository_id", uuidDto value.repositoryId.uuid), ("prompt", .string value.prompt),
    ("status", .string (taskStatusDto value.status)), ("attempt", .int value.attempt.toNat),
    ("retry_of", optionDto (fun id => uuidDto id.uuid) value.retryOf),
    ("created_at", utcTimestampDto value.createdAt),
    ("started_at", optionDto utcTimestampDto value.startedAt),
    ("finished_at", optionDto utcTimestampDto value.finishedAt),
    ("last_event_id", .int value.lastEventId.get),
    ("failure", optionDto taskFailureDto value.failure)]

/-- mirrors crates/coding-agent-api/src/contract.rs:199-215 -/
def planItemStatusDto : PlanItemStatus → String
  | .pending => "pending"
  | .running => "running"
  | .completed => "completed"

/-- mirrors crates/coding-agent-api/src/contract.rs:182-197 -/
def planItemDto (value : PlanItem) : Json :=
  .object [("id", .string value.id), ("title", .string value.title),
    ("status", .string (planItemStatusDto value.status))]

/-- mirrors crates/coding-agent-api/src/contract.rs:167-180 -/
def planSnapshotDto (value : PlanSnapshot) : Json :=
  .object [("revision", .int value.revision.toNat), ("items", .array (value.items.map planItemDto))]

/-- mirrors crates/coding-agent-api/src/contract.rs:236-252 -/
def activityLevelDto : ActivityLevel → String
  | .info => "info"
  | .warning => "warning"
  | .error => "error"

/-- mirrors crates/coding-agent-api/src/contract.rs:217-234 -/
def activityEntryDto (value : ActivityEntry) : Json :=
  .object [("id", .string value.id), ("level", .string (activityLevelDto value.level)),
    ("message", .string value.message), ("created_at", utcTimestampDto value.createdAt)]

/-- mirrors crates/coding-agent-api/src/contract.rs:290-306 -/
def diffFileStatusDto : DiffFileStatus → String
  | .added => "added"
  | .modified => "modified"
  | .deleted => "deleted"

/-- mirrors crates/coding-agent-api/src/contract.rs:269-288 -/
def diffFileDto (value : DiffFile) : Json :=
  .object [("path", .string value.path), ("status", .string (diffFileStatusDto value.status)),
    ("patch", .string value.patch), ("additions", .int value.additions.toNat),
    ("deletions", .int value.deletions.toNat)]

/-- mirrors crates/coding-agent-api/src/contract.rs:254-267 -/
def diffSnapshotDto (value : DiffSnapshot) : Json :=
  .object [("revision", .int value.revision.toNat), ("files", .array (value.files.map diffFileDto))]

/-- mirrors crates/coding-agent-api/src/contract.rs:346-366 -/
def testStatusDto : TestStatus → String
  | .queued => "queued"
  | .running => "running"
  | .passed => "passed"
  | .failed => "failed"
  | .cancelled => "cancelled"

/-- mirrors crates/coding-agent-api/src/contract.rs:325-344 -/
def testCaseDto (value : TestCase) : Json :=
  .object [("id", .string value.id), ("name", .string value.name),
    ("status", .string (testStatusDto value.status)), ("duration_ms", .int value.durationMs.toNat),
    ("summary", .string value.summary)]

/-- mirrors crates/coding-agent-api/src/contract.rs:308-322 -/
def testSnapshotDto (value : TestSnapshot) : Json :=
  .object [("revision", .int value.revision.toNat), ("status", .string (testStatusDto value.status)),
    ("cases", .array (value.cases.map testCaseDto))]

/-- mirrors crates/coding-agent-api/src/contract.rs:469-489,567-580 -/
def eventName : TaskEventKind → String
  | .taskQueued => "task.queued"
  | .taskStarted => "task.started"
  | .planUpdated => "plan.updated"
  | .activityAppended => "activity.appended"
  | .diffUpdated => "diff.updated"
  | .testUpdated => "test.updated"
  | .taskCompleted => "task.completed"
  | .taskFailed => "task.failed"
  | .taskCancelled => "task.cancelled"
  | .taskInterrupted => "task.interrupted"

/-- mirrors crates/coding-agent-api/src/contract.rs:444-467 -/
def payloadDto : TaskEventPayload → Json
  | .taskQueued task | .taskStarted task | .taskCompleted task | .taskFailed task
  | .taskCancelled task | .taskInterrupted task => .object [("task", taskDto task)]
  | .planUpdated plan => .object [("plan", planSnapshotDto plan)]
  | .activityAppended entry => .object [("entry", activityEntryDto entry)]
  | .diffUpdated diff => .object [("diff", diffSnapshotDto diff)]
  | .testUpdated tests => .object [("tests", testSnapshotDto tests)]

/-- mirrors crates/coding-agent-api/src/contract.rs:491-503,629-731 -/
def taskEventDto (event : TaskEvent) : Json :=
  .object [("id", .int event.id.get), ("schema_version", .int event.schemaVersion),
    ("task_id", uuidDto event.taskId.uuid), ("kind", .string (eventName event.kind)),
    ("payload", payloadDto event.payload), ("created_at", utcTimestampDto event.createdAt)]

/-! ## Frames -/

/-- A field of an `Event`. -/
def eventField (name value : List Char) : List Char := name ++ ':' :: ' ' :: value

/-- The lines of the frame of an event, and the blank one.
mirrors crates/coding-agent-api/src/sse.rs:582-590 -/
def persistedEvent (event : TaskEvent) : List (List Char) :=
  [eventField "id".toList (Nat.toDigits 10 event.id.get),
    eventField "event".toList (eventName event.kind).toList,
    eventField "data".toList (taskEventDto event).print, []]

/-- The bytes of lines, as the response carries them. -/
def frameBytes (lines : List (List Char)) : List UInt8 :=
  Utf8.encode (lines.flatMap (· ++ ['\n']))

/-! ## What the document is -/

open Json in
theorem plain_optionDto {α : Type} {dto : α → Json} (h : ∀ a, Plain (dto a)) (a : Option α) :
    Plain (optionDto dto a) := by
  cases a with
  | none => trivial
  | some a => exact h a

theorem plainItems_map {α : Type} {dto : α → Json} (h : ∀ a, Json.Plain (dto a)) (as : List α) :
    Json.PlainItems (as.map dto) := by
  induction as with
  | nil => trivial
  | cons a as ih => exact ⟨h a, ih⟩

theorem plain_uuidDto (value : Uuid) : Json.Plain (uuidDto value) := trivial

theorem plain_utcTimestampDto (value : UtcTimestamp) : Json.Plain (utcTimestampDto value) := trivial

theorem plain_taskFailureDto (value : TaskFailure) : Json.Plain (taskFailureDto value) :=
  ⟨trivial, trivial, trivial, trivial⟩

theorem plain_taskDto (value : Task) : Json.Plain (taskDto value) := by
  have hretry := plain_optionDto (fun id : TaskId => plain_uuidDto id.uuid) value.retryOf
  have hstarted := plain_optionDto plain_utcTimestampDto value.startedAt
  have hfinished := plain_optionDto plain_utcTimestampDto value.finishedAt
  have hfailure := plain_optionDto plain_taskFailureDto value.failure
  simp only [taskDto, Json.Plain, Json.PlainMembers, hretry, hstarted, hfinished, hfailure,
    plain_uuidDto, plain_utcTimestampDto, and_self]

theorem plain_planItemDto (value : PlanItem) : Json.Plain (planItemDto value) :=
  ⟨trivial, trivial, trivial, trivial⟩

theorem plain_diffFileDto (value : DiffFile) : Json.Plain (diffFileDto value) :=
  ⟨trivial, trivial, trivial, trivial, trivial, trivial⟩

theorem plain_testCaseDto (value : TestCase) : Json.Plain (testCaseDto value) :=
  ⟨trivial, trivial, trivial, trivial, trivial, trivial⟩

theorem plain_payloadDto (payload : TaskEventPayload) : Json.Plain (payloadDto payload) := by
  cases payload with
  | taskQueued task | taskStarted task | taskCompleted task | taskFailed task
  | taskCancelled task | taskInterrupted task => exact ⟨plain_taskDto task, trivial⟩
  | planUpdated plan =>
    exact ⟨⟨trivial, plainItems_map plain_planItemDto _, trivial⟩, trivial⟩
  | activityAppended entry => exact ⟨⟨trivial, trivial, trivial, trivial, trivial⟩, trivial⟩
  | diffUpdated diff => exact ⟨⟨trivial, plainItems_map plain_diffFileDto _, trivial⟩, trivial⟩
  | testUpdated tests =>
    exact ⟨⟨trivial, trivial, plainItems_map plain_testCaseDto _, trivial⟩, trivial⟩

theorem plain_taskEventDto (event : TaskEvent) : Json.Plain (taskEventDto event) :=
  ⟨trivial, trivial, trivial, trivial, plain_payloadDto event.payload, trivial, trivial⟩

end CodingAgent.L3.Api
