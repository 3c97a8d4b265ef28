import CodingAgent.L2Store.Readable
import CodingAgent.L5Web.EventFrame

/-!
# The decoder on JSON (`web/src/api/sse.ts:809-1171`)

`decodeFrame` and its guards on the text of a frame, as `JSON.parse` reads it.
A record is its members; of two with one name the later counts. `integerOf` is
the integer that `JSON.parse` makes of a literal with a fraction or an
exponent, where it makes one. Strings are code units, surrogates alone among
them; the message of an error shows such a one as U+FFFD.

* `decodeFrame_event`: the decoder on the frame of an event that the store has.
* `wire_agreement`: from the row of an event to the message the client decodes.
-/
namespace CodingAgent.L5.Web.Wire
open CodingAgent.L1.Domain CodingAgent.L2.Store CodingAgent.L3.Api Json

abbrev Record := List (String × Json)

/-- `record[name]`; `none` is `undefined`. -/
def property (name : String) : Record → Option Json
  | [] => none
  | (k, v) :: ms => (property name ms).or (if k = name then some v else none)

/-! ## Guards -/

/-- mirrors web/src/api/sse.ts:1157-1159 -/
def asRecord : Option Json → Option Record
  | some (.object ms) => some ms
  | _ => none

def asText : Option Json → Option String
  | some (.string s) => some s
  | _ => none

/-- The code units of a string. -/
def asUnits : Option Json → Option (List UInt16)
  | some (.string s) => some (Utf16.encode s.toList)
  | some (.illFormed units) => some units
  | _ => none

def isString (value : Option Json) : Bool := (asUnits value).isSome

/-- mirrors web/src/api/sse.ts:1115-1117 -/
def isOptionalNullableString : Option Json → Bool
  | none | some .null => true
  | value => isString value

/-- One of some texts. -/
def isOneOf (texts : List String) (value : Option Json) : Bool := (asText value).any (· ∈ texts)

/-- mirrors web/src/api/sse.ts:1094-1103 -/
def isTaskStatus : Option Json → Bool :=
  isOneOf ["queued", "running", "completed", "failed", "cancelled", "interrupted"]

/-- mirrors web/src/api/sse.ts:1105-1113 -/
def isTestStatus : Option Json → Bool :=
  isOneOf ["queued", "running", "passed", "failed", "cancelled"]

/-- mirrors web/src/api/sse.ts:1169-1171 -/
def isServiceState : Option Json → Bool := isOneOf ["ready", "store_degraded", "quiescing"]

def isBoolean : Option Json → Bool
  | some (.bool _) => true
  | _ => false

/-- `Array.isArray(value) && value.every(guard)`, on records. -/
def isArrayOf (guard : Record → Bool) : Option Json → Bool
  | some (.array items) => items.all fun item => (asRecord (some item)).any guard
  | _ => false

section
variable (integerOf : List Char → Option Int)

/-- `Number.isSafeInteger`, and the integer. -/
def safeInteger : Option Json → Option Int
  | some (.int n) => if isSafeInteger n then some n else none
  | some (.decimal literal) => (integerOf literal).filter isSafeInteger
  | _ => none

/-- mirrors web/src/api/sse.ts:1161-1163 -/
def isPositiveSafeInteger (value : Option Json) : Bool := (safeInteger integerOf value).any (0 < ·)

/-- mirrors web/src/api/sse.ts:1165-1167 -/
def isNonNegativeSafeInteger (value : Option Json) : Bool :=
  (safeInteger integerOf value).any (0 ≤ ·)

/-- mirrors web/src/api/sse.ts:1021-1028 -/
def isTaskFailure (value : Option Json) : Bool :=
  (asRecord value).any fun value => isString (property "code" value) &&
    isString (property "message" value) && isBoolean (property "retryable" value)

/-- mirrors web/src/api/sse.ts:999-1019 -/
def isTask (value : Option Json) : Bool :=
  (asRecord value).any fun value =>
    isString (property "id" value) && isString (property "repository_id" value) &&
    isString (property "client_request_id" value) && isString (property "prompt" value) &&
    isTaskStatus (property "status" value) &&
    isNonNegativeSafeInteger integerOf (property "attempt" value) &&
    isNonNegativeSafeInteger integerOf (property "last_event_id" value) &&
    isString (property "created_at" value) &&
    isOptionalNullableString (property "started_at" value) &&
    isOptionalNullableString (property "finished_at" value) &&
    isOptionalNullableString (property "retry_of" value) &&
    match property "failure" value with
    | none | some .null => true
    | failure => isTaskFailure failure

/-- mirrors web/src/api/sse.ts:1030-1045 -/
def isPlanSnapshot (value : Option Json) : Bool :=
  (asRecord value).any fun value =>
    isNonNegativeSafeInteger integerOf (property "revision" value) &&
    isArrayOf (fun item => isString (property "id" item) && isString (property "title" item) &&
      isOneOf ["pending", "running", "completed"] (property "status" item)) (property "items" value)

/-- mirrors web/src/api/sse.ts:1047-1055 -/
def isActivityEntry (value : Option Json) : Bool :=
  (asRecord value).any fun value =>
    isString (property "id" value) && isString (property "created_at" value) &&
    isString (property "message" value) &&
    isOneOf ["info", "warning", "error"] (property "level" value)

/-- mirrors web/src/api/sse.ts:1057-1074 -/
def isDiffSnapshot (value : Option Json) : Bool :=
  (asRecord value).any fun value =>
    isNonNegativeSafeInteger integerOf (property "revision" value) &&
    isArrayOf (fun file => isString (property "path" file) && isString (property "patch" file) &&
      isNonNegativeSafeInteger integerOf (property "additions" file) &&
      isNonNegativeSafeInteger integerOf (property "deletions" file) &&
      isOneOf ["added", "modified", "deleted"] (property "status" file)) (property "files" value)

/-- mirrors web/src/api/sse.ts:1076-1092 -/
def isTestSnapshot (value : Option Json) : Bool :=
  (asRecord value).any fun value =>
    isNonNegativeSafeInteger integerOf (property "revision" value) &&
    isTestStatus (property "status" value) &&
    isArrayOf (fun case => isString (property "id" case) && isString (property "name" case) &&
      isString (property "summary" case) &&
      isNonNegativeSafeInteger integerOf (property "duration_ms" case) &&
      isTestStatus (property "status" case)) (property "cases" value)

/-- Once `isTask` holds, the fields compared are strings and safe integers.
mirrors web/src/api/sse.ts:985-997 -/
def isConsistentLifecycleTask (event : Record) (expectedStatus : String) : Bool :=
  (asRecord (property "payload" event)).any fun payload =>
    isTask integerOf (property "task" payload) &&
      (asRecord (property "task" payload)).any fun task =>
        asUnits (property "id" task) = asUnits (property "task_id" event) &&
        asText (property "status" task) = some expectedStatus &&
        safeInteger integerOf (property "last_event_id" task) =
          safeInteger integerOf (property "id" event)

/-- The guard of a kind's payload.
mirrors web/src/api/sse.ts:959-982 -/
def isKnownPayload (event payload : Record) (kind : String) : Bool :=
  if kind = "task.queued" then isConsistentLifecycleTask integerOf event "queued"
  else if kind = "task.started" then isConsistentLifecycleTask integerOf event "running"
  else if kind = "task.completed" then isConsistentLifecycleTask integerOf event "completed"
  else if kind = "task.failed" then isConsistentLifecycleTask integerOf event "failed"
  else if kind = "task.cancelled" then isConsistentLifecycleTask integerOf event "cancelled"
  else if kind = "task.interrupted" then isConsistentLifecycleTask integerOf event "interrupted"
  else if kind = "plan.updated" then isPlanSnapshot integerOf (property "plan" payload)
  else if kind = "activity.appended" then isActivityEntry (property "entry" payload)
  else if kind = "diff.updated" then isDiffSnapshot integerOf (property "diff" payload)
  else if kind = "test.updated" then isTestSnapshot integerOf (property "tests" payload)
  else false

/-- mirrors web/src/api/sse.ts:947-983 -/
def isKnownTaskEvent (value : Record) : Bool :=
  isPositiveSafeInteger integerOf (property "id" value) &&
  isPositiveSafeInteger integerOf (property "schema_version" value) &&
  isString (property "task_id" value) && isString (property "created_at" value) &&
  (asRecord (property "payload" value)).any fun payload =>
    (asText (property "kind" value)).any (isKnownPayload integerOf value payload)

/-- mirrors web/src/api/sse.ts:935-945 -/
def isServiceStateMessage (value : Record) : Bool :=
  asText (property "kind" value) = some "service.state" &&
  isPositiveSafeInteger integerOf (property "schema_version" value) &&
  isNonNegativeSafeInteger integerOf (property "generation" value) &&
  isServiceState (property "state" value)

/-! ## The decoder -/

/-- mirrors web/src/api/sse.ts:796-807 -/
inductive DecodedFrame where
  | message (message : Record) (persistedId : Option Nat)
  | diagnostic (diagnostic : SseDiagnostic) (persistedId : Nat)
  | reset (latestEventId : Nat)

/-- mirrors web/src/api/sse.ts:890-932 -/
def decodePersisted (frame : RawFrame) (value : Record) (kind : String) :
    Except SseProtocolError DecodedFrame :=
  match parsePersistedId (frame.id.map String.ofList) with
  | .error error => .error error
  | .ok frameId =>
    match (safeInteger integerOf (property "id" value)).filter (0 < ·) with
    | none => .error ⟨.malformedEnvelope, "persisted SSE data id must be a positive integer"⟩
    | some dataId =>
      if (frameId : Int) ≠ dataId then
        .error ⟨.eventIdMismatch,
          "SSE id " ++ toString frameId ++ " disagreed with data id " ++ toString dataId⟩
      else if kind ∉ taskEventKinds.map kindName then
        .ok (.diagnostic
          ⟨kind, frameId, "ignored supported-schema event kind " ++ kind⟩ frameId)
      else if (asUnits (property "task_id" value)).any (· ≠ []) &&
          isString (property "created_at" value) && isKnownTaskEvent integerOf value then
        .ok (.message value (some frameId))
      else .error ⟨.malformedEnvelope, "persisted " ++ kind ++ " envelope was malformed"⟩

/-- mirrors web/src/api/sse.ts:853-932 -/
def decodeKind (frame : RawFrame) (value : Record) (kind : String) :
    Except SseProtocolError DecodedFrame :=
  if kind = "stream.reset" then
    match frame.id, (safeInteger integerOf (property "latest_event_id" value)).filter (0 ≤ ·) with
    | none, some latestEventId => .ok (.reset latestEventId.toNat)
    | _, _ =>
      .error ⟨.malformedEnvelope,
        "stream.reset must be id-less and carry a non-negative latest_event_id"⟩
  else if kind = "service.state" then
    if frame.id = none ∧ isNonNegativeSafeInteger integerOf (property "generation" value) ∧
        isServiceState (property "state" value) then
      if isServiceStateMessage integerOf value then .ok (.message value none)
      else .error ⟨.malformedEnvelope, "service.state envelope was malformed"⟩
    else .error ⟨.malformedEnvelope, "service.state envelope was malformed"⟩
  else decodePersisted integerOf frame value kind

/-- mirrors web/src/api/sse.ts:809-933 -/
def decodeFrame (frame : RawFrame) (schemaVersion : Nat) : Except SseProtocolError DecodedFrame :=
  match Json.parseWide frame.data with
  | none => .error ⟨.malformedJson, "SSE data was not valid JSON"⟩
  | some (.object value) =>
    match (safeInteger integerOf (property "schema_version" value)).filter (0 < ·) with
    | none =>
      .error ⟨.malformedEnvelope, "SSE envelope schema_version must be a positive integer"⟩
    | some bodySchema =>
      if bodySchema ≠ schemaVersion then
        .error ⟨.unsupportedSchema, "unsupported SSE schema version " ++ toString bodySchema⟩
      else
        match asUnits (property "kind" value) with
        | none | some [] =>
          .error ⟨.malformedEnvelope, "SSE envelope kind must be a non-empty string"⟩
        | some kind =>
          -- the name of an event is a text
          if Utf16.encode frame.event ≠ kind then
            .error ⟨.eventKindMismatch, "SSE event " ++ String.ofList frame.event ++
              " disagreed with data kind " ++ String.ofList (Utf16.lossy kind)⟩
          else decodeKind integerOf frame value (String.ofList frame.event)
  | some _ => .error ⟨.malformedEnvelope, "SSE data must be a JSON object"⟩

end

/-! ## Numbers -/

/-- The numbers of a payload are safe integers. -/
def SafePayload : TaskEventPayload → Prop
  | .taskQueued task | .taskStarted task | .taskCompleted task | .taskFailed task
  | .taskCancelled task | .taskInterrupted task =>
    isSafeInteger task.attempt.toNat ∧ isSafeInteger task.lastEventId.get
  | .planUpdated plan => isSafeInteger plan.revision.toNat
  | .activityAppended _ => True
  | .diffUpdated diff => isSafeInteger diff.revision.toNat ∧
    ∀ file ∈ diff.files, isSafeInteger file.additions.toNat ∧ isSafeInteger file.deletions.toNat
  | .testUpdated tests => isSafeInteger tests.revision.toNat ∧
    ∀ case ∈ tests.cases, isSafeInteger case.durationMs.toNat

def SafeEvent (event : TaskEvent) : Prop :=
  isSafeInteger event.id.get ∧ SafePayload event.payload

section
variable (integerOf : List Char → Option Int)

theorem safeInteger_int {n : Nat} (h : isSafeInteger n = true) :
    safeInteger integerOf (some (.int n)) = some (n : Int) := if_pos h

theorem nonNegative_int {n : Nat} (h : isSafeInteger n = true) :
    isNonNegativeSafeInteger integerOf (some (.int n)) = true := by
  rw [isNonNegativeSafeInteger, safeInteger_int integerOf h]
  exact decide_eq_true (Int.natCast_nonneg n)

theorem positive_int {n : Nat} (h : isSafeInteger n = true) (hpos : 0 < n) :
    isPositiveSafeInteger integerOf (some (.int n)) = true := by
  rw [isPositiveSafeInteger, safeInteger_int integerOf h]
  exact decide_eq_true (Int.natCast_pos.2 hpos)

/-! ## Each document passes its guard -/

theorem isArrayOf_map {α : Type} {guard : Record → Bool} {dto : α → Json} {as : List α}
    (h : ∀ a ∈ as, (asRecord (some (dto a))).any guard = true) :
    isArrayOf guard (some (.array (as.map dto))) = true := by
  rw [isArrayOf, List.all_map, List.all_eq_true]
  exact h

@[simp] theorem isString_string (s : String) : isString (some (.string s)) = true := rfl

@[simp] theorem isString_uuidDto (value : Uuid) : isString (some (uuidDto value)) = true := rfl

@[simp] theorem isString_utcTimestampDto (value : UtcTimestamp) :
    isString (some (utcTimestampDto value)) = true := rfl

@[simp] theorem asRecord_object (ms : Record) : asRecord (some (.object ms)) = some ms := rfl

theorem isTaskStatus_dto (status : TaskStatus) :
    isTaskStatus (some (.string (taskStatusDto status))) = true := by
  cases status <;> decide

theorem isTestStatus_dto (status : TestStatus) :
    isTestStatus (some (.string (testStatusDto status))) = true := by
  cases status <;> decide

theorem isOptionalNullableString_dto {α : Type} (dto : α → Json)
    (h : ∀ a, isOptionalNullableString (some (dto a)) = true) (a : Option α) :
    isOptionalNullableString (some (optionDto dto a)) = true := by
  cases a with
  | none => rfl
  | some a => exact h a

theorem isTaskFailure_dto (failure : TaskFailure) :
    isTaskFailure (some (taskFailureDto failure)) = true := by
  simp [isTaskFailure, taskFailureDto, property, isBoolean]

/-- A task without a failure has `null` there. -/
theorem failureGuard_dto (failure : Option TaskFailure) :
    (match some (optionDto taskFailureDto failure) with
      | none | some .null => true
      | failure => isTaskFailure failure) = true := by
  cases failure with
  | none => rfl
  | some failure => exact isTaskFailure_dto failure

theorem isTask_dto {task : Task} (hattempt : isSafeInteger task.attempt.toNat = true)
    (hlast : isSafeInteger task.lastEventId.get = true) :
    isTask integerOf (some (taskDto task)) = true := by
  have hretry := isOptionalNullableString_dto (fun id : TaskId => uuidDto id.uuid)
    (fun _ => rfl) task.retryOf
  have hstarted := isOptionalNullableString_dto utcTimestampDto (fun _ => rfl) task.startedAt
  have hfinished := isOptionalNullableString_dto utcTimestampDto (fun _ => rfl) task.finishedAt
  have hfailure := failureGuard_dto task.failure
  simpa [isTask, taskDto, property, isTaskStatus_dto, hretry, hstarted, hfinished,
    nonNegative_int integerOf hattempt, nonNegative_int integerOf hlast] using hfailure

theorem isPlanSnapshot_dto {plan : PlanSnapshot} (h : isSafeInteger plan.revision.toNat = true) :
    isPlanSnapshot integerOf (some (planSnapshotDto plan)) = true := by
  simp only [isPlanSnapshot, planSnapshotDto, asRecord_object, Option.any_some, property,
    String.reduceEq, ↓reduceIte, Option.or_self, Option.or_some, Option.getD_none, Option.or_none,
    nonNegative_int integerOf h, Bool.true_and]
  refine isArrayOf_map fun item _ => ?_
  cases hs : item.status <;>
    simp [planItemDto, planItemStatusDto, property, asText, isOneOf, hs]

theorem isActivityEntry_dto (entry : ActivityEntry) :
    isActivityEntry (some (activityEntryDto entry)) = true := by
  cases hl : entry.level <;>
    simp [isActivityEntry, activityEntryDto, activityLevelDto, property, asText, isOneOf, hl]

theorem isDiffSnapshot_dto {diff : DiffSnapshot} (h : isSafeInteger diff.revision.toNat = true)
    (hfiles : ∀ file ∈ diff.files, isSafeInteger file.additions.toNat = true ∧
      isSafeInteger file.deletions.toNat = true) :
    isDiffSnapshot integerOf (some (diffSnapshotDto diff)) = true := by
  simp only [isDiffSnapshot, diffSnapshotDto, asRecord_object, Option.any_some, property,
    String.reduceEq, ↓reduceIte, Option.or_self, Option.or_some, Option.getD_none, Option.or_none,
    nonNegative_int integerOf h, Bool.true_and]
  refine isArrayOf_map fun file hfile => ?_
  obtain ⟨hadditions, hdeletions⟩ := hfiles file hfile
  cases hs : file.status <;>
    simp [diffFileDto, diffFileStatusDto, property, asText, isOneOf, hs,
      nonNegative_int integerOf hadditions, nonNegative_int integerOf hdeletions]

theorem isTestSnapshot_dto {tests : TestSnapshot} (h : isSafeInteger tests.revision.toNat = true)
    (hcases : ∀ case ∈ tests.cases, isSafeInteger case.durationMs.toNat = true) :
    isTestSnapshot integerOf (some (testSnapshotDto tests)) = true := by
  simp only [isTestSnapshot, testSnapshotDto, asRecord_object, Option.any_some, property,
    String.reduceEq, ↓reduceIte, Option.or_self, Option.or_some, Option.getD_none, Option.or_none,
    nonNegative_int integerOf h, isTestStatus_dto, Bool.true_and]
  refine isArrayOf_map fun case hcase => ?_
  simp [testCaseDto, property, nonNegative_int integerOf (hcases case hcase), isTestStatus_dto]

/-! ## The decoder on the frame of an event -/

/-- The members of the document of an event. -/
def taskEventRecord (event : TaskEvent) : Record :=
  [("id", .int event.id.get), ("schema_version", .int event.schemaVersion),
    ("task_id", uuidDto event.taskId.uuid), ("kind", .string (eventName event.kind)),
    ("payload", payloadDto event.payload), ("created_at", utcTimestampDto event.createdAt)]

/-- A message with what an event says. -/
structure Says (value : Record) (event : TaskEvent) : Prop where
  id : property "id" value = some (.int event.id.get)
  schemaVersion : property "schema_version" value = some (.int event.schemaVersion)
  taskId : property "task_id" value = some (uuidDto event.taskId.uuid)
  kind : property "kind" value = some (.string (eventName event.kind))
  payload : property "payload" value = some (payloadDto event.payload)
  createdAt : property "created_at" value = some (utcTimestampDto event.createdAt)

theorem says_taskEventRecord (event : TaskEvent) : Says (taskEventRecord event) event where
  id := by simp [taskEventRecord, property]
  schemaVersion := by simp [taskEventRecord, property]
  taskId := by simp [taskEventRecord, property]
  kind := by simp [taskEventRecord, property]
  payload := by simp [taskEventRecord, property]
  createdAt := by simp [taskEventRecord, property]

theorem digits_toDigits {n : Nat} (h : 0 < n) : digits (Nat.toDigits 10 n) = some n := by
  have hvalue := Nat.ofDigitChars_ten_toDigits (n := n)
  have hhead := head_toDigits h
  have hdigit : ∀ c ∈ Nat.toDigits 10 n, '0' ≤ c ∧ c ≤ '9' := fun c hc => by
    have hc := isDigit_toDigits hc
    rwa [Char.isDigit, Bool.and_eq_true, decide_eq_true_iff, decide_eq_true_iff] at hc
  cases hcs : Nat.toDigits 10 n with
  | nil => exact absurd hcs Nat.toDigits_ne_nil
  | cons c cs =>
    rw [hcs] at hvalue hhead hdigit
    obtain ⟨hc, hrest⟩ := List.forall_mem_cons.1 hdigit
    have hone : '1' ≤ c := by
      have hne : '0' ≠ c := fun heq => hhead (congrArg some heq.symm)
      exact Nat.succ_le_of_lt (Nat.lt_of_le_of_ne hc.1 fun heq => hne (Char.ext (UInt32.toNat_inj.1 heq)))
    have hall : cs.all (fun d => '0' ≤ d ∧ d ≤ '9') = true := by simpa using hrest
    rw [digits, if_pos ⟨hone, hc.2, hall⟩, ← Nat.ofDigitChars_eq_foldl, hvalue]

theorem parsePersistedId_toDigits {n : Nat} (hpos : 0 < n) (h : isSafeInteger n = true) :
    parsePersistedId (some (String.ofList (Nat.toDigits 10 n))) = .ok n := by
  simp [parsePersistedId, digits_toDigits hpos, h]

theorem isConsistentLifecycleTask_dto {event : TaskEvent} {task : Task} (hok : EventOk event)
    (htask : event.payload.task? = some task) (hattempt : isSafeInteger task.attempt.toNat = true)
    (hlast : isSafeInteger task.lastEventId.get = true) : isConsistentLifecycleTask integerOf
      (taskEventRecord event) (taskStatusDto task.status) = true := by
  obtain ⟨-, hid, hevent, -⟩ := hok.task task htask
  have hguard := isTask_dto integerOf hattempt hlast
  have hsafe := safeInteger_int integerOf hlast
  have htold := says_taskEventRecord event
  rw [hevent] at hsafe
  rw [isConsistentLifecycleTask, htold.payload, htold.taskId, htold.id, payloadDto_task htask, hsafe]
  rw [taskDto, hid, hevent] at hguard ⊢
  simpa [property, hsafe, asText, asUnits, uuidDto] using hguard

/-- The guard of the kind accepts the payload of an event. -/
theorem isKnownPayload_dto {event : TaskEvent} {payload : Record} (hok : EventOk event)
    (hsafe : SafePayload event.payload) (hpayload : payloadDto event.payload = .object payload) :
    isKnownPayload integerOf (taskEventRecord event) payload (eventName event.kind) = true := by
  have hlife : ∀ task, event.payload.task? = some task → isSafeInteger task.attempt.toNat = true →
      isSafeInteger task.lastEventId.get = true → event.kind = lifecycleKind task.status ∧
      isConsistentLifecycleTask integerOf (taskEventRecord event) (taskStatusDto task.status) = true :=
    fun task htask hattempt hlast => ⟨(hok.task task htask).2.2.2,
      isConsistentLifecycleTask_dto integerOf hok htask hattempt hlast⟩
  rw [TaskEvent.kind] at hlife ⊢
  cases hp : event.payload with
  | taskQueued task | taskStarted task | taskCompleted task | taskFailed task
  | taskCancelled task | taskInterrupted task =>
    rw [hp] at hsafe hlife
    obtain ⟨hkind, hguard⟩ := hlife task rfl hsafe.1 hsafe.2
    cases hstatus : task.status <;> rw [hstatus] at hkind hguard <;> cases hkind
    simpa [isKnownPayload, eventName, TaskEventPayload.kind, taskStatusDto] using hguard
  | planUpdated plan =>
    rw [hp] at hsafe hpayload
    cases hpayload
    simpa [isKnownPayload, eventName, TaskEventPayload.kind, property] using
      isPlanSnapshot_dto integerOf hsafe
  | activityAppended entry =>
    rw [hp] at hpayload
    cases hpayload
    simpa [isKnownPayload, eventName, TaskEventPayload.kind, property] using
      isActivityEntry_dto entry
  | diffUpdated diff =>
    rw [hp] at hsafe hpayload
    cases hpayload
    simpa [isKnownPayload, eventName, TaskEventPayload.kind, property] using
      isDiffSnapshot_dto integerOf hsafe.1 hsafe.2
  | testUpdated tests =>
    rw [hp] at hsafe hpayload
    cases hpayload
    simpa [isKnownPayload, eventName, TaskEventPayload.kind, property] using
      isTestSnapshot_dto integerOf hsafe.1 hsafe.2

theorem payloadDto_object (payload : TaskEventPayload) :
    ∃ record, payloadDto payload = .object record := by
  cases payload <;> exact ⟨_, rfl⟩

theorem isKnownTaskEvent_dto {event : TaskEvent} (hok : EventOk event) (hsafe : SafeEvent event) :
    isKnownTaskEvent integerOf (taskEventRecord event) = true := by
  have htold := says_taskEventRecord event
  obtain ⟨record, hrecord⟩ := payloadDto_object event.payload
  have hknown := isKnownPayload_dto integerOf hok hsafe.2 hrecord
  have hid := positive_int integerOf hsafe.1 event.id.pos
  have hone : isPositiveSafeInteger integerOf (some (.int (1 : Nat))) = true :=
    positive_int integerOf (by decide) Nat.one_pos
  rw [isKnownTaskEvent, htold.id, htold.schemaVersion, htold.taskId, htold.createdAt, htold.payload,
    htold.kind, hok.schema, hrecord, hid, hone]
  simpa [asText] using hknown

theorem encode_ne_nil {text : String} (h : text ≠ "") : Utf16.encode text.toList ≠ [] := by
  intro hnil
  have hdecode := Utf16.decode_encode text.toList
  rw [hnil] at hdecode
  exact h (String.toList_eq_nil_iff.1 (Option.some.inj hdecode).symm)

theorem text_ne_empty (value : Uuid) : value.text ≠ "" := by
  intro h
  have hlength := UuidText.format_length value.toNat
  rw [Uuid.text] at h
  rw [← String.toList_ofList (l := UuidText.format value.toNat), h] at hlength
  cases hlength

theorem schemaVersion_one :
    (safeInteger integerOf (some (.int (1 : Nat)))).filter (0 < ·) = some ((1 : Nat) : Int) := by
  rw [safeInteger_int integerOf (by decide)]
  rfl

/-- A frame whose document has its version and the name of its event comes to the kind. -/
theorem decodeFrame_kind {frame : RawFrame} {value : Record} {kind : String}
    (hdata : Json.parseWide frame.data = some (.object value))
    (hversion : property "schema_version" value = some (.int (1 : Nat)))
    (hkind : property "kind" value = some (.string kind)) (hname : frame.event = kind.toList)
    (hne : kind ≠ "") : decodeFrame integerOf frame 1 = decodeKind integerOf frame value kind := by
  rw [decodeFrame, hdata]
  simp only [hversion, schemaVersion_one, hkind, asUnits, ne_eq, not_true_eq_false, if_false]
  split
  · next hnone => cases hnone
  · next hempty => exact absurd (Option.some.inj hempty) (encode_ne_nil hne)
  · next hsome =>
    cases hsome
    rw [hname, if_neg (not_not.2 rfl), String.ofList_toList]

/-- **The decoder** on the frame of an event: a message that says what the
event says. -/
theorem decodeFrame_event {event : TaskEvent} (hok : EventOk event) (hsafe : SafeEvent event) :
    decodeFrame integerOf (rawFrame event) 1 =
      .ok (.message (taskEventRecord event) (some event.id.get)) := by
  have htold := says_taskEventRecord event
  have hid : (safeInteger integerOf (some (.int event.id.get))).filter (0 < ·) =
      some (event.id.get : Int) := by
    have hpos := event.id.pos
    simpa [safeInteger_int integerOf hsafe.1] using hpos
  have hkind : eventName event.kind ≠ "" ∧ eventName event.kind ≠ "stream.reset" ∧
      eventName event.kind ≠ "service.state" ∧
      eventName event.kind ∈ taskEventKinds.map kindName := by
    cases event.kind <;> decide
  have htask : (asUnits (some (uuidDto event.taskId.uuid))).any (· ≠ []) = true := by
    simp only [uuidDto, asUnits, Option.any_some]
    exact decide_eq_true (encode_ne_nil (text_ne_empty event.taskId.uuid))
  have hknown := isKnownTaskEvent_dto integerOf hok hsafe
  have hframe := parsePersistedId_toDigits event.id.pos hsafe.1
  have hpersisted : decodePersisted integerOf (rawFrame event) (taskEventRecord event)
      (eventName event.kind) = .ok (.message (taskEventRecord event) (some event.id.get)) := by
    simp only [decodePersisted, rawFrame, Option.map_some, hframe, htold.id, hid, htold.taskId,
      htold.createdAt, htask, hknown, isString_utcTimestampDto, hkind.2.2.2, ne_eq, not_true_eq_false,
      if_false, Bool.and_self, if_true]
  have hdata : Json.parseWide (rawFrame event).data = some (.object (taskEventRecord event)) :=
    Json.parseWide_print (plain_taskEventDto event)
  have hversion : property "schema_version" (taskEventRecord event) = some (.int (1 : Nat)) := by
    rw [htold.schemaVersion, hok.schema]
  rw [decodeFrame_kind integerOf hdata hversion htold.kind rfl hkind.1, decodeKind,
    if_neg hkind.2.1, if_neg hkind.2.2.1, hpersisted]

/-! ## From the store to the client -/

/-- **Wire agreement.** The frame of an event that the store has, with safe
numbers and within the limit, is one frame to the parser, however its bytes are
cut, and to the decoder a message that says what the event says. -/
theorem wire_agreement {db : Db} (hdb : store.Reachable db) {row : EventRow} (hrow : row ∈ db.events)
    {event : TaskEvent} (hevent : Text.eventFromRecord row.record = .ok event)
    (hsafe : SafeEvent event) {maxFrameBytes : Nat}
    (hfits : (frameBytes (persistedEvent event)).length ≤ maxFrameBytes)
    {chunks : List (List UInt8)} (hchunks : chunks.flatten = frameBytes (persistedEvent event)) :
    ∃ frame message, parseChunks maxFrameBytes chunks = { frames := [frame], error := none } ∧
      decodeFrame integerOf frame 1 = .ok (.message message (some event.id.get)) ∧
      Says message event := by
  obtain ⟨log, hlog⟩ := reachable_reflects hdb
  obtain ⟨event', he, hok, -⟩ := decode_event hlog hrow
  rw [Text.eventFromRecord_record, hok] at hevent
  cases hevent
  have hparse := parseChunks_event maxFrameBytes event hchunks
  rw [if_neg (Nat.not_lt.2 hfits)] at hparse
  exact ⟨rawFrame event, taskEventRecord event, hparse,
    decodeFrame_event integerOf (valid_eventOk hlog.valid event he) hsafe,
    says_taskEventRecord event⟩

end

/-- A store with a task that is running and a test run of it. -/
def sampleStore : Db :=
  StoreCall.execAll (Db.migrated []) [sampleRegistration, .task (sampleCreation 2),
    .task ⟨sampleEnv 3, .transitionWithEvent ⟨2⟩ .queued .running, false⟩,
    .task ⟨sampleEnv 4, .appendRunningEvent ⟨2⟩
      (.testUpdated ⟨7, .passed, [⟨"a", "b\n", .failed, 3, "\"c\""⟩]⟩), false⟩]

/-- The last event of that store. -/
def sampleEvent : TaskEvent :=
  .new ⟨3, by decide, by decide⟩ ⟨2⟩ (.testUpdated ⟨7, .passed, [⟨"a", "b\n", .failed, 3, "\"c\""⟩]⟩)
    ⟨4, by decide, by decide⟩

theorem wire_agreement_sample :
    ∃ frame message, parseChunks 1024 [frameBytes (persistedEvent sampleEvent)] =
        { frames := [frame], error := none } ∧
      decodeFrame (fun _ => none) frame 1 = .ok (.message message (some 3)) ∧
      Says message sampleEvent := by
  have hrow : EventRow.ofEvent sampleEvent ∈ sampleStore.events := by decide +kernel
  have hevent : Text.eventFromRecord (EventRow.ofEvent sampleEvent).record = .ok sampleEvent := by
    decide +kernel
  have hsafe : SafeEvent sampleEvent :=
    ⟨by decide, by decide, fun case hcase => by
      rw [List.mem_singleton.1 hcase]
      decide⟩
  exact wire_agreement _ (reachable_execAll _) hrow hevent hsafe (by decide +kernel)
    (List.append_nil _)

end CodingAgent.L5.Web.Wire
