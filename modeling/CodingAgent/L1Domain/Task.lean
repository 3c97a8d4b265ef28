import CodingAgent.L1Domain.Path

/-!
# Domain values and tasks (`coding-agent-domain`)

Identifiers, timestamps, event ids and the `Task` and `Repository` records of
`crates/coding-agent-domain/src/{ids,value,task,repository}.rs`.

A UUID is its 128-bit value. Its hyphenated text has a fixed width and
lower-case digits, so texts compare as the values do and the SQL columns that
hold them are modelled by the values themselves. The same goes for
`UtcTimestamp`, whose fixed-width text is ordered as the instants are. An
`EventCursor` (`value.rs:162-182`) is a `Nat`; `0` is before every event.
-/
namespace CodingAgent.L1.Domain

abbrev Uuid := BitVec 128

/-- mirrors crates/coding-agent-domain/src/ids.rs:6-42 -/
structure RepositoryId where
  uuid : Uuid
  deriving DecidableEq, Repr

structure TaskId where
  uuid : Uuid
  deriving DecidableEq, Repr

structure ClientRequestId where
  uuid : Uuid
  deriving DecidableEq, Repr

/-- mirrors crates/coding-agent-domain/src/value.rs:15-31 -/
inductive DomainError where
  | invalidPrompt
  | invalidCanonicalPath
  | invalidTimestamp
  | invalidEventId
  | invalidEventCursor
  | invalidTaskAttempt
  | invalidTaskState
  deriving DecidableEq, Repr

/-- 0000-01-01T00:00:00Z, in nanoseconds since the Unix epoch. -/
def minNanos : Int := -62167219200 * 10 ^ 9

/-- The last nanosecond of 9999-12-31 UTC. -/
def maxNanos : Int := 253402300800 * 10 ^ 9 - 1

/-- An instant whose UTC year is in `0..=9999`, in nanoseconds since the Unix
epoch.
mirrors crates/coding-agent-domain/src/value.rs:76-98 -/
structure UtcTimestamp where
  nanos : Int
  lower : minNanos ≤ nanos
  upper : nanos ≤ maxNanos
  deriving DecidableEq, Repr

namespace UtcTimestamp

/-- `UtcTimestamp::new` on the instant of its `OffsetDateTime`.
mirrors crates/coding-agent-domain/src/value.rs:80-87 -/
def new (instant : Int) : Except DomainError UtcTimestamp :=
  if h : minNanos ≤ instant ∧ instant ≤ maxNanos then .ok ⟨instant, h.1, h.2⟩
  else .error .invalidTimestamp

def epoch : UtcTimestamp := ⟨0, by decide, by decide⟩

end UtcTimestamp

/-- mirrors crates/coding-agent-domain/src/value.rs:38-53 -/
def CanonicalPath.tryFromCanonical (path : PathBuf) : Except DomainError CanonicalPath :=
  if h : isCanonical path = true then .ok ⟨path, h⟩ else .error .invalidCanonicalPath

theorem CanonicalPath.tryFromCanonical_text (t : PathText) :
    tryFromCanonical (Utf8.encode t.text.toList) = .ok (ofText t) := dif_pos t.canonical

/-- mirrors crates/coding-agent-domain/src/repository.rs:11-20 -/
structure Repository where
  id : RepositoryId
  selectedPath : CanonicalPath
  displayName : String
  gitRoot : CanonicalPath
  cargoWorkspaceRoot : CanonicalPath
  createdAt : UtcTimestamp
  lastOpenedAt : UtcTimestamp
  deriving DecidableEq, Repr

/-- A positive `i64`.
mirrors crates/coding-agent-domain/src/value.rs:137-153 -/
structure EventId where
  get : Nat
  pos : 0 < get
  upper : get < 2 ^ 63
  deriving DecidableEq, Repr

/-- mirrors crates/coding-agent-domain/src/value.rs:142-148 -/
def EventId.new (value : Nat) : Except DomainError EventId :=
  if h : 0 < value ∧ value < 2 ^ 63 then .ok ⟨value, h.1, h.2⟩ else .error .invalidEventId

/-- The id of the first event of a log. -/
def EventId.first : EventId := ⟨1, by decide, by decide⟩

theorem EventId.ext_get {a b : EventId} (h : a.get = b.get) : a = b := by
  cases a; cases b; simp only at h; subst h; rfl

@[simp] theorem EventId.new_get (e : EventId) : EventId.new e.get = .ok e :=
  dif_pos ⟨e.pos, e.upper⟩

/-- mirrors crates/coding-agent-domain/src/task.rs:3-12 -/
inductive TaskStatus where
  | queued
  | running
  | completed
  | failed
  | cancelled
  | interrupted
  deriving DecidableEq, Repr

namespace TaskStatus

/-- mirrors crates/coding-agent-domain/src/task.rs:15-26 -/
def canTransitionTo : TaskStatus → TaskStatus → Bool
  | .queued, .running => true
  | .queued, .cancelled => true
  | .queued, .interrupted => true
  | .running, .completed => true
  | .running, .failed => true
  | .running, .cancelled => true
  | .running, .interrupted => true
  | _, _ => false

/-- mirrors crates/coding-agent-domain/src/task.rs:28-33 -/
def isRetryable : TaskStatus → Bool
  | .completed | .failed | .cancelled | .interrupted => true
  | .queued | .running => false

theorem canTransitionTo_from {a b : TaskStatus} (h : a.canTransitionTo b = true) :
    a = .queued ∨ a = .running := by
  cases a <;> cases b <;> simp_all [canTransitionTo]

/-- Only a queued task is started, and whatever else a transition reaches is
terminal. -/
theorem canTransitionTo_cases {a b : TaskStatus} (h : a.canTransitionTo b = true) :
    (a = .queued ∧ b = .running) ∨ b.isRetryable = true := by
  cases a <;> cases b <;> simp_all [canTransitionTo, isRetryable]

theorem canTransitionTo_running {a : TaskStatus} (h : a.canTransitionTo .running = true) :
    a = .queued := by
  cases a <;> simp_all [canTransitionTo]

end TaskStatus

/-- mirrors crates/coding-agent-domain/src/task.rs:36-41 -/
structure TaskFailure where
  code : String
  message : String
  retryable : Bool
  deriving DecidableEq, Repr

/-- `char::is_whitespace`, the Unicode `White_Space` property. -/
def isWhiteSpace (c : Char) : Bool :=
  let v := c.val.toNat
  (9 ≤ v && v ≤ 13) || v == 0x20 || v == 0x85 || v == 0xA0 || v == 0x1680 ||
    (0x2000 ≤ v && v ≤ 0x200A) || v == 0x2028 || v == 0x2029 || v == 0x202F || v == 0x205F ||
    v == 0x3000

/-- `str::trim`. -/
def trim (s : String) : String :=
  String.ofList (((s.toList.dropWhile isWhiteSpace).reverse.dropWhile isWhiteSpace).reverse)

/-- mirrors crates/coding-agent-domain/src/task.rs:43-48 -/
structure NewTask where
  clientRequestId : ClientRequestId
  repositoryId : RepositoryId
  prompt : String
  deriving DecidableEq, Repr

/-- mirrors crates/coding-agent-domain/src/task.rs:51-69 -/
def NewTask.tryNew (clientRequestId : ClientRequestId) (repositoryId : RepositoryId)
    (prompt : String) : Except DomainError NewTask :=
  let prompt := trim prompt
  let scalarCount := prompt.toList.length
  if scalarCount = 0 ∨ 50000 < scalarCount then .error .invalidPrompt
  else .ok { clientRequestId, repositoryId, prompt }

theorem NewTask.tryNew_ok {clientRequestId : ClientRequestId} {repositoryId : RepositoryId}
    {prompt : String} {new : NewTask}
    (h : NewTask.tryNew clientRequestId repositoryId prompt = .ok new) :
    new = { clientRequestId, repositoryId, prompt := trim prompt } := by
  simp only [NewTask.tryNew] at h
  split at h
  · cases h
  · exact (Except.ok.inj h).symm

/-- Whether a prompt is accepted depends on the trimmed prompt. -/
theorem NewTask.tryNew_congr {clientRequestId : ClientRequestId} {repositoryId : RepositoryId}
    {prompt prompt' : String} {new : NewTask} (hprompt : trim prompt' = trim prompt)
    (h : NewTask.tryNew clientRequestId repositoryId prompt = .ok new)
    (clientRequestId' : ClientRequestId) (repositoryId' : RepositoryId) :
    ∃ new', NewTask.tryNew clientRequestId' repositoryId' prompt' = .ok new' := by
  simp only [NewTask.tryNew] at h ⊢
  rw [hprompt]
  split at h
  · cases h
  · rename_i hlength
    exact ⟨_, if_neg hlength⟩

/-- mirrors crates/coding-agent-domain/src/task.rs:72-86 -/
structure Task where
  id : TaskId
  clientRequestId : ClientRequestId
  repositoryId : RepositoryId
  prompt : String
  status : TaskStatus
  attempt : UInt32
  retryOf : Option TaskId
  createdAt : UtcTimestamp
  startedAt : Option UtcTimestamp
  finishedAt : Option UtcTimestamp
  lastEventId : EventId
  failure : Option TaskFailure
  deriving DecidableEq, Repr

namespace Task

/-- The table of `try_from_stored`: which optional fields a status has.
mirrors crates/coding-agent-domain/src/task.rs:94-109 -/
def stateIsValid (task : Task) : Bool :=
  match task.status with
  | .queued => task.startedAt.isNone && task.finishedAt.isNone && task.failure.isNone
  | .running => task.startedAt.isSome && task.finishedAt.isNone && task.failure.isNone
  | .completed => task.startedAt.isSome && task.finishedAt.isSome && task.failure.isNone
  | .failed => task.startedAt.isSome && task.finishedAt.isSome && task.failure.isSome
  | .cancelled => task.finishedAt.isSome && task.failure.isNone
  | .interrupted => task.finishedAt.isSome && task.failure.isSome

/-- mirrors crates/coding-agent-domain/src/task.rs:89-116 -/
def tryFromStored (task : Task) : Except DomainError Task :=
  if task.attempt = 0 then .error .invalidTaskAttempt
  else if task.stateIsValid then .ok task
  else .error .invalidTaskState

/-- What `try_from_stored` accepts. -/
structure WellFormed (task : Task) : Prop where
  attempt : task.attempt ≠ 0
  state : task.stateIsValid = true

theorem tryFromStored_ok_iff {task t : Task} :
    tryFromStored task = .ok t ↔ WellFormed task ∧ t = task := by
  unfold tryFromStored
  constructor
  · intro h
    split at h
    · cases h
    · split at h
      · cases h; exact ⟨⟨‹_›, ‹_›⟩, rfl⟩
      · cases h
  · rintro ⟨⟨ha, hs⟩, rfl⟩
    rw [if_neg ha, if_pos hs]

end Task

end CodingAgent.L1.Domain
