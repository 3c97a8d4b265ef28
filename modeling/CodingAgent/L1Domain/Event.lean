import CodingAgent.L1Domain.Task

/-!
# Task events (`coding-agent-domain/src/event.rs`)

The ten event kinds, their payloads, and the snapshot records the panel
events carry.
-/
namespace CodingAgent.L1.Domain

/-- mirrors crates/coding-agent-domain/src/event.rs:16-22 -/
inductive PlanItemStatus where
  | pending | running | completed
  deriving DecidableEq, Repr

structure PlanItem where
  id : String
  title : String
  status : PlanItemStatus
  deriving DecidableEq, Repr

/-- mirrors crates/coding-agent-domain/src/event.rs:3-7 -/
structure PlanSnapshot where
  revision : UInt64
  items : List PlanItem
  deriving DecidableEq, Repr

inductive ActivityLevel where
  | info | warning | error
  deriving DecidableEq, Repr

/-- mirrors crates/coding-agent-domain/src/event.rs:24-30 -/
structure ActivityEntry where
  id : String
  level : ActivityLevel
  message : String
  createdAt : UtcTimestamp
  deriving DecidableEq, Repr

inductive DiffFileStatus where
  | added | modified | deleted
  deriving DecidableEq, Repr

structure DiffFile where
  path : String
  status : DiffFileStatus
  patch : String
  additions : UInt64
  deletions : UInt64
  deriving DecidableEq, Repr

/-- mirrors crates/coding-agent-domain/src/event.rs:40-44 -/
structure DiffSnapshot where
  revision : UInt64
  files : List DiffFile
  deriving DecidableEq, Repr

inductive TestStatus where
  | queued | running | passed | failed | cancelled
  deriving DecidableEq, Repr

structure TestCase where
  id : String
  name : String
  status : TestStatus
  durationMs : UInt64
  summary : String
  deriving DecidableEq, Repr

/-- mirrors crates/coding-agent-domain/src/event.rs:63-68 -/
structure TestSnapshot where
  revision : UInt64
  status : TestStatus
  cases : List TestCase
  deriving DecidableEq, Repr

/-- mirrors crates/coding-agent-domain/src/event.rs:89-111 -/
inductive TaskEventKind where
  | taskQueued
  | taskStarted
  | planUpdated
  | activityAppended
  | diffUpdated
  | testUpdated
  | taskCompleted
  | taskFailed
  | taskCancelled
  | taskInterrupted
  deriving DecidableEq, Repr

namespace TaskEventKind

/-- The four kinds a runner emits. -/
def isPanel : TaskEventKind → Bool
  | .planUpdated | .activityAppended | .diffUpdated | .testUpdated => true
  | _ => false

/-- The kinds that end a task. -/
def isTerminal : TaskEventKind → Bool
  | .taskCompleted | .taskFailed | .taskCancelled | .taskInterrupted => true
  | _ => false

def isLifecycle (kind : TaskEventKind) : Bool := !kind.isPanel

end TaskEventKind

/-- mirrors crates/coding-agent-domain/src/event.rs:113-136 -/
inductive TaskEventPayload where
  | taskQueued (task : Task)
  | taskStarted (task : Task)
  | planUpdated (plan : PlanSnapshot)
  | activityAppended (entry : ActivityEntry)
  | diffUpdated (diff : DiffSnapshot)
  | testUpdated (tests : TestSnapshot)
  | taskCompleted (task : Task)
  | taskFailed (task : Task)
  | taskCancelled (task : Task)
  | taskInterrupted (task : Task)
  deriving DecidableEq, Repr

namespace TaskEventPayload

/-- mirrors crates/coding-agent-domain/src/event.rs:139-152 -/
def kind : TaskEventPayload → TaskEventKind
  | .taskQueued _ => .taskQueued
  | .taskStarted _ => .taskStarted
  | .planUpdated _ => .planUpdated
  | .activityAppended _ => .activityAppended
  | .diffUpdated _ => .diffUpdated
  | .testUpdated _ => .testUpdated
  | .taskCompleted _ => .taskCompleted
  | .taskFailed _ => .taskFailed
  | .taskCancelled _ => .taskCancelled
  | .taskInterrupted _ => .taskInterrupted

/-- The row a lifecycle payload carries. -/
def task? : TaskEventPayload → Option Task
  | .taskQueued task | .taskStarted task | .taskCompleted task | .taskFailed task
  | .taskCancelled task | .taskInterrupted task => some task
  | .planUpdated _ | .activityAppended _ | .diffUpdated _ | .testUpdated _ => none

theorem task?_isNone_iff (p : TaskEventPayload) : p.task? = none ↔ p.kind.isPanel = true := by
  cases p <;> simp [task?, kind, TaskEventKind.isPanel]

end TaskEventPayload

/-- mirrors crates/coding-agent-domain/src/event.rs:155-163 -/
structure TaskEvent where
  id : EventId
  schemaVersion : Nat
  taskId : TaskId
  payload : TaskEventPayload
  createdAt : UtcTimestamp
  deriving DecidableEq, Repr

def TaskEvent.kind (event : TaskEvent) : TaskEventKind := event.payload.kind

/-- mirrors crates/coding-agent-domain/src/event.rs:165-180 -/
def TaskEvent.new (id : EventId) (taskId : TaskId) (payload : TaskEventPayload)
    (createdAt : UtcTimestamp) : TaskEvent :=
  { id, schemaVersion := 1, taskId, payload, createdAt }

/-- mirrors crates/coding-agent-domain/src/event.rs:182-189 -/
structure TimelineEntry where
  eventId : EventId
  kind : TaskEventKind
  label : String
  createdAt : UtcTimestamp
  failure : Option TaskFailure
  deriving DecidableEq, Repr

end CodingAgent.L1.Domain
