import CodingAgent.Core.Rfc3339
import CodingAgent.Core.Serde
import CodingAgent.Core.Uuid
import CodingAgent.L1Domain.Event

/-!
# Texts and documents of the domain (`coding-agent-domain`)

What `Display` and `FromStr` of the identifiers and of `UtcTimestamp` write
and read, and the `Serialize` and `Deserialize` of the task, its failure and
the panel snapshots (`crates/coding-agent-domain/src/{ids,value,task,event}.rs`).
The fields of a structure are in the order they are declared in.
-/
namespace CodingAgent.L1.Domain
open Serde

/-! ## Texts -/

/-- mirrors crates/coding-agent-domain/src/ids.rs:28-32 -/
def Uuid.text (uuid : Uuid) : String := String.ofList (UuidText.format uuid.toNat)

/-- mirrors crates/coding-agent-domain/src/ids.rs:34-40 -/
def Uuid.parse (text : String) : Option Uuid :=
  (UuidText.parse text.toList).map (BitVec.ofNat 128)

@[simp] theorem Uuid.parse_text (uuid : Uuid) : Uuid.parse uuid.text = some uuid := by
  rw [Uuid.parse, Uuid.text, String.toList_ofList, UuidText.parse_format uuid.isLt,
    Option.map_some, BitVec.ofNat_toNat, BitVec.setWidth_eq]

def RepositoryId.text (id : RepositoryId) : String := id.uuid.text

def RepositoryId.parse (text : String) : Option RepositoryId := (Uuid.parse text).map .mk

def TaskId.text (id : TaskId) : String := id.uuid.text

def TaskId.parse (text : String) : Option TaskId := (Uuid.parse text).map .mk

def ClientRequestId.text (id : ClientRequestId) : String := id.uuid.text

def ClientRequestId.parse (text : String) : Option ClientRequestId := (Uuid.parse text).map .mk

@[simp] theorem RepositoryId.parse_text (id : RepositoryId) : parse id.text = some id := by
  simp [parse, text]

@[simp] theorem TaskId.parse_text (id : TaskId) : parse id.text = some id := by
  simp [parse, text]

@[simp] theorem ClientRequestId.parse_text (id : ClientRequestId) : parse id.text = some id := by
  simp [parse, text]

namespace UtcTimestamp

/-- mirrors crates/coding-agent-domain/src/value.rs:108-116 -/
def text (timestamp : UtcTimestamp) : String :=
  String.ofList (Rfc3339.format (timestamp.nanos - minNanos).toNat)

/-- For a text of an instant up to the year 9999; what happens to a later one
is in `Timestamp`.
mirrors crates/coding-agent-domain/src/value.rs:89-93 -/
def parseRfc3339 (value : String) : Except DomainError UtcTimestamp :=
  match Rfc3339.parse value.toList with
  | some instant => new (minNanos + instant)
  | none => .error .invalidTimestamp

/-- Nanoseconds since 0000-01-01, within ten thousand years. -/
theorem instant_lt (timestamp : UtcTimestamp) :
    (timestamp.nanos - minNanos).toNat < Rfc3339.nanosPerDay * 3652425 := by
  have hlower := timestamp.lower
  have hupper := timestamp.upper
  simp only [minNanos, maxNanos, Rfc3339.nanosPerDay] at hlower hupper ⊢
  omega

theorem parseRfc3339_of_parse {value : String} {instant : Int}
    (h : Rfc3339.parse value.toList = some instant) :
    parseRfc3339 value = new (minNanos + instant) := by
  rw [parseRfc3339, h]

@[simp] theorem parseRfc3339_text (timestamp : UtcTimestamp) :
    parseRfc3339 timestamp.text = .ok timestamp := by
  have hparse : Rfc3339.parse timestamp.text.toList =
      some ((timestamp.nanos - minNanos).toNat : Int) := by
    rw [text, String.toList_ofList]
    exact Rfc3339.parse_format timestamp.instant_lt
  have hnanos : minNanos + ((timestamp.nanos - minNanos).toNat : Int) = timestamp.nanos := by
    have := timestamp.lower
    omega
  rw [parseRfc3339_of_parse hparse, hnanos]
  exact dif_pos ⟨timestamp.lower, timestamp.upper⟩

end UtcTimestamp

instance : Codec RepositoryId :=
  .ofText RepositoryId.text RepositoryId.parse RepositoryId.parse_text

instance : Codec TaskId := .ofText TaskId.text TaskId.parse TaskId.parse_text

instance : Codec ClientRequestId :=
  .ofText ClientRequestId.text ClientRequestId.parse ClientRequestId.parse_text

/-- mirrors crates/coding-agent-domain/src/value.rs:118-135 -/
instance : Codec UtcTimestamp :=
  .ofText UtcTimestamp.text (fun text => (UtcTimestamp.parseRfc3339 text).toOption) fun timestamp => by
    rw [UtcTimestamp.parseRfc3339_text]
    rfl

theorem EventId.isI64 (id : EventId) : -2 ^ 63 ≤ (id.get : Int) ∧ (id.get : Int) < 2 ^ 63 := by
  have := id.upper
  omega

/-- mirrors crates/coding-agent-domain/src/value.rs:137-162 -/
instance : Codec EventId where
  serialize id := .int id.get
  deserialize
    | .int n =>
      if -2 ^ 63 ≤ n ∧ n < 2 ^ 63 then (EventId.new n.toNat).toOption else none
    | _ => none
  depth := 0
  fits _ := trivial
  notNull _ h := by cases h
  deserialize_form tree id := by
    rw [form_int]
    simp only [if_pos id.isI64, Int.toNat_natCast, EventId.new_get]
    rfl

/-! ## Enumerations -/

/-- mirrors crates/coding-agent-domain/src/task.rs:3-12 -/
def TaskStatus.variant : TaskStatus → String
  | .queued => "queued"
  | .running => "running"
  | .completed => "completed"
  | .failed => "failed"
  | .cancelled => "cancelled"
  | .interrupted => "interrupted"

instance : Codec TaskStatus :=
  .ofNames TaskStatus.variant [.queued, .running, .completed, .failed, .cancelled, .interrupted]
    fun status => by cases status <;> rfl

/-- mirrors crates/coding-agent-domain/src/event.rs:16-22 -/
def PlanItemStatus.variant : PlanItemStatus → String
  | .pending => "pending"
  | .running => "running"
  | .completed => "completed"

instance : Codec PlanItemStatus :=
  .ofNames PlanItemStatus.variant [.pending, .running, .completed]
    fun status => by cases status <;> rfl

/-- mirrors crates/coding-agent-domain/src/event.rs:32-38 -/
def ActivityLevel.variant : ActivityLevel → String
  | .info => "info"
  | .warning => "warning"
  | .error => "error"

instance : Codec ActivityLevel :=
  .ofNames ActivityLevel.variant [.info, .warning, .error]
    fun level => by cases level <;> rfl

/-- mirrors crates/coding-agent-domain/src/event.rs:55-61 -/
def DiffFileStatus.variant : DiffFileStatus → String
  | .added => "added"
  | .modified => "modified"
  | .deleted => "deleted"

instance : Codec DiffFileStatus :=
  .ofNames DiffFileStatus.variant [.added, .modified, .deleted]
    fun status => by cases status <;> rfl

/-- mirrors crates/coding-agent-domain/src/event.rs:79-87 -/
def TestStatus.variant : TestStatus → String
  | .queued => "queued"
  | .running => "running"
  | .passed => "passed"
  | .failed => "failed"
  | .cancelled => "cancelled"

instance : Codec TestStatus :=
  .ofNames TestStatus.variant [.queued, .running, .passed, .failed, .cancelled]
    fun status => by cases status <;> rfl

/-! ## Structures -/

/-- mirrors crates/coding-agent-domain/src/task.rs:36-41 -/
def TaskFailure.layout : Layout TaskFailure where
  names := ["code", "message", "retryable"]
  members failure :=
    [("code", serialize failure.code), ("message", serialize failure.message),
     ("retryable", serialize failure.retryable)]
  read
    | [code, message, retryable] => do
      pure { code := ← required code, message := ← required message,
             retryable := ← required retryable }
    | _ => none
  depth := 0
  nodup := by decide
  names_members _ := rfl
  fits failure := by
    simp only [List.forall_mem_cons]
    exact ⟨fits_serialize (by decide) _, fits_serialize (by decide) _, fits_serialize (by decide) _,
      fun m hm => by cases hm⟩
  read_form tree failure := by simp

instance : Codec TaskFailure := TaskFailure.layout.codec

/-- mirrors crates/coding-agent-domain/src/task.rs:72-86 -/
def Task.layout : Layout Task where
  names := ["id", "client_request_id", "repository_id", "prompt", "status", "attempt", "retry_of",
    "created_at", "started_at", "finished_at", "last_event_id", "failure"]
  members task :=
    [("id", serialize task.id), ("client_request_id", serialize task.clientRequestId),
     ("repository_id", serialize task.repositoryId), ("prompt", serialize task.prompt),
     ("status", serialize task.status), ("attempt", serialize task.attempt),
     ("retry_of", serializeOption task.retryOf), ("created_at", serialize task.createdAt),
     ("started_at", serializeOption task.startedAt),
     ("finished_at", serializeOption task.finishedAt),
     ("last_event_id", serialize task.lastEventId), ("failure", serializeOption task.failure)]
  read
    | [id, clientRequestId, repositoryId, prompt, status, attempt, retryOf, createdAt, startedAt,
       finishedAt, lastEventId, failure] => do
      pure { id := ← required id, clientRequestId := ← required clientRequestId,
             repositoryId := ← required repositoryId, prompt := ← required prompt,
             status := ← required status, attempt := ← required attempt,
             retryOf := ← nullable retryOf, createdAt := ← required createdAt,
             startedAt := ← nullable startedAt, finishedAt := ← nullable finishedAt,
             lastEventId := ← required lastEventId, failure := ← nullable failure }
    | _ => none
  depth := 1
  nodup := by decide
  names_members _ := rfl
  fits task := by
    simp only [List.forall_mem_cons]
    exact ⟨fits_serialize (by decide) _, fits_serialize (by decide) _,
      fits_serialize (by decide) _, fits_serialize (by decide) _, fits_serialize (by decide) _,
      fits_serialize (by decide) _, fits_serializeOption (by decide) _,
      fits_serialize (by decide) _, fits_serializeOption (by decide) _,
      fits_serializeOption (by decide) _, fits_serialize (by decide) _,
      fits_serializeOption (by decide) _, fun m hm => by cases hm⟩
  read_form tree task := by simp

instance : Codec Task := Task.layout.codec

/-- mirrors crates/coding-agent-domain/src/event.rs:9-14 -/
def PlanItem.layout : Layout PlanItem where
  names := ["id", "title", "status"]
  members item :=
    [("id", serialize item.id), ("title", serialize item.title), ("status", serialize item.status)]
  read
    | [id, title, status] => do
      pure { id := ← required id, title := ← required title, status := ← required status }
    | _ => none
  depth := 0
  nodup := by decide
  names_members _ := rfl
  fits item := by
    simp only [List.forall_mem_cons]
    exact ⟨fits_serialize (by decide) _, fits_serialize (by decide) _,
      fits_serialize (by decide) _, fun m hm => by cases hm⟩
  read_form tree item := by simp

instance : Codec PlanItem := PlanItem.layout.codec

/-- mirrors crates/coding-agent-domain/src/event.rs:3-7 -/
def PlanSnapshot.layout : Layout PlanSnapshot where
  names := ["revision", "items"]
  members plan := [("revision", serialize plan.revision), ("items", serialize plan.items)]
  read
    | [revision, items] => do
      pure { revision := ← required revision, items := ← required items }
    | _ => none
  depth := 2
  nodup := by decide
  names_members _ := rfl
  fits plan := by
    simp only [List.forall_mem_cons]
    exact ⟨fits_serialize (by decide) _, fits_serialize (by decide) _, fun m hm => by cases hm⟩
  read_form tree plan := by simp

instance : Codec PlanSnapshot := PlanSnapshot.layout.codec

/-- mirrors crates/coding-agent-domain/src/event.rs:24-30 -/
def ActivityEntry.layout : Layout ActivityEntry where
  names := ["id", "level", "message", "created_at"]
  members entry :=
    [("id", serialize entry.id), ("level", serialize entry.level),
     ("message", serialize entry.message), ("created_at", serialize entry.createdAt)]
  read
    | [id, level, message, createdAt] => do
      pure { id := ← required id, level := ← required level, message := ← required message,
             createdAt := ← required createdAt }
    | _ => none
  depth := 0
  nodup := by decide
  names_members _ := rfl
  fits entry := by
    simp only [List.forall_mem_cons]
    exact ⟨fits_serialize (by decide) _, fits_serialize (by decide) _,
      fits_serialize (by decide) _, fits_serialize (by decide) _, fun m hm => by cases hm⟩
  read_form tree entry := by simp

instance : Codec ActivityEntry := ActivityEntry.layout.codec

/-- mirrors crates/coding-agent-domain/src/event.rs:46-53 -/
def DiffFile.layout : Layout DiffFile where
  names := ["path", "status", "patch", "additions", "deletions"]
  members file :=
    [("path", serialize file.path), ("status", serialize file.status),
     ("patch", serialize file.patch), ("additions", serialize file.additions),
     ("deletions", serialize file.deletions)]
  read
    | [path, status, patch, additions, deletions] => do
      pure { path := ← required path, status := ← required status, patch := ← required patch,
             additions := ← required additions, deletions := ← required deletions }
    | _ => none
  depth := 0
  nodup := by decide
  names_members _ := rfl
  fits file := by
    simp only [List.forall_mem_cons]
    exact ⟨fits_serialize (by decide) _, fits_serialize (by decide) _,
      fits_serialize (by decide) _, fits_serialize (by decide) _, fits_serialize (by decide) _,
      fun m hm => by cases hm⟩
  read_form tree file := by simp

instance : Codec DiffFile := DiffFile.layout.codec

/-- mirrors crates/coding-agent-domain/src/event.rs:40-44 -/
def DiffSnapshot.layout : Layout DiffSnapshot where
  names := ["revision", "files"]
  members diff := [("revision", serialize diff.revision), ("files", serialize diff.files)]
  read
    | [revision, files] => do
      pure { revision := ← required revision, files := ← required files }
    | _ => none
  depth := 2
  nodup := by decide
  names_members _ := rfl
  fits diff := by
    simp only [List.forall_mem_cons]
    exact ⟨fits_serialize (by decide) _, fits_serialize (by decide) _, fun m hm => by cases hm⟩
  read_form tree diff := by simp

instance : Codec DiffSnapshot := DiffSnapshot.layout.codec

/-- mirrors crates/coding-agent-domain/src/event.rs:70-77 -/
def TestCase.layout : Layout TestCase where
  names := ["id", "name", "status", "duration_ms", "summary"]
  members case :=
    [("id", serialize case.id), ("name", serialize case.name), ("status", serialize case.status),
     ("duration_ms", serialize case.durationMs), ("summary", serialize case.summary)]
  read
    | [id, name, status, durationMs, summary] => do
      pure { id := ← required id, name := ← required name, status := ← required status,
             durationMs := ← required durationMs, summary := ← required summary }
    | _ => none
  depth := 0
  nodup := by decide
  names_members _ := rfl
  fits case := by
    simp only [List.forall_mem_cons]
    exact ⟨fits_serialize (by decide) _, fits_serialize (by decide) _,
      fits_serialize (by decide) _, fits_serialize (by decide) _, fits_serialize (by decide) _,
      fun m hm => by cases hm⟩
  read_form tree case := by simp

instance : Codec TestCase := TestCase.layout.codec

/-- mirrors crates/coding-agent-domain/src/event.rs:63-68 -/
def TestSnapshot.layout : Layout TestSnapshot where
  names := ["revision", "status", "cases"]
  members tests :=
    [("revision", serialize tests.revision), ("status", serialize tests.status),
     ("cases", serialize tests.cases)]
  read
    | [revision, status, cases] => do
      pure { revision := ← required revision, status := ← required status,
             cases := ← required cases }
    | _ => none
  depth := 2
  nodup := by decide
  names_members _ := rfl
  fits tests := by
    simp only [List.forall_mem_cons]
    exact ⟨fits_serialize (by decide) _, fits_serialize (by decide) _,
      fits_serialize (by decide) _, fun m hm => by cases hm⟩
  read_form tree tests := by simp

instance : Codec TestSnapshot := TestSnapshot.layout.codec

end CodingAgent.L1.Domain
