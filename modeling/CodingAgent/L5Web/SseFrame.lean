import CodingAgent.L1Domain.Event
import CodingAgent.L1Domain.ServiceState

/-!
# Frames of the event stream (`web/src/api/sse.ts`)

`decodeFrame` with every error it throws. The data of a frame is taken as
`JSON.parse` leaves it, each field as the `typeof` tests of the decoder see it:
`none` where the field is missing or has another type. A payload is already the
record that the guard of the frame's kind accepts (`isTask`, `isPlanSnapshot`,
...); the checks that relate fields to each other are made here.

* `decodeFrame_event`, `decodeFrame_diagnostic`: what is known of a frame that
  decodes to a message or a diagnostic.
-/
namespace CodingAgent.L5.Web
open CodingAgent.L1.Domain

/-- mirrors web/src/api/sse.ts:22-35 -/
inductive SseProtocolCode where
  | malformedUtf8
  | frameTooLarge
  | truncatedFrame
  | malformedJson
  | malformedEnvelope
  | unsupportedSchema
  | eventKindMismatch
  | eventIdMismatch
  | nonMonotonicId
  | streamReset
  | invalidContentType
  | httpError
  | projectionError
  deriving DecidableEq, Repr

/-- `SseProtocolError`, and the reason a recovery is given. -/
structure SseProtocolError where
  code : SseProtocolCode
  message : String
  deriving DecidableEq, Repr

/-- The record in a frame's data, as far as `decodeFrame` reads it. -/
structure SseEnvelope where
  schemaVersion : Option Int := none
  kind : Option String := none
  latestEventId : Option Int := none
  generation : Option Int := none
  state : Option ServiceState := none
  id : Option Int := none
  taskId : Option TaskId := none
  createdAt : Option UtcTimestamp := none
  payload : Option TaskEventPayload := none
  deriving DecidableEq, Repr

/-- What `JSON.parse` makes of the data. -/
inductive SseData where
  | invalid
  | notRecord
  | record (value : SseEnvelope)
  deriving DecidableEq, Repr

/-- mirrors web/src/api/sse.ts:47-51 -/
structure SseFrame where
  event : String
  data : SseData
  id : Option String
  deriving DecidableEq, Repr

/-- mirrors web/src/api/types.ts -/
inductive SseMessage where
  | taskEvent (event : TaskEvent)
  | serviceState (state : ServiceState) (generation : Nat)
  deriving DecidableEq, Repr

/-- mirrors web/src/api/sse.ts:264-269 -/
structure SseDiagnostic where
  event : String
  persistedId : Nat
  message : String
  deriving DecidableEq, Repr

/-- mirrors web/src/api/sse.ts:796-807 -/
inductive DecodedFrame where
  | message (message : SseMessage) (persistedId : Option Nat)
  | diagnostic (diagnostic : SseDiagnostic) (persistedId : Nat)
  | reset (latestEventId : Nat)
  deriving DecidableEq, Repr

namespace DecodedFrame

def persistedId : DecodedFrame → Option Nat
  | .message _ persistedId => persistedId
  | .diagnostic _ persistedId => some persistedId
  | .reset _ => none

end DecodedFrame

/-! ## The guards -/

def maxSafeInteger : Int := 2 ^ 53 - 1

def isSafeInteger (value : Int) : Bool := -maxSafeInteger ≤ value ∧ value ≤ maxSafeInteger

def isPositiveSafeInteger (value : Int) : Bool := isSafeInteger value ∧ 0 < value

def isNonNegativeSafeInteger (value : Int) : Bool := isSafeInteger value ∧ 0 ≤ value

/-- A field that must hold a number with a property; `none` otherwise. -/
def guarded (guard : Int → Bool) (value : Option Int) : Option Nat :=
  match value with
  | some n => if guard n then some n.toNat else none
  | none => none

/-- mirrors web/src/api/sse.ts:9-20 -/
def kindName : TaskEventKind → String
  | .taskQueued => "task.queued"
  | .taskStarted => "task.started"
  | .planUpdated => "plan.updated"
  | .activityAppended => "activity.appended"
  | .diffUpdated => "diff.updated"
  | .testUpdated => "test.updated"
  | .taskCompleted => "task.completed"
  | .taskFailed => "task.failed"
  | .taskCancelled => "task.cancelled"
  | .taskInterrupted => "task.interrupted"

def taskEventKinds : List TaskEventKind :=
  [.taskQueued, .taskStarted, .planUpdated, .activityAppended, .diffUpdated, .testUpdated,
    .taskCompleted, .taskFailed, .taskCancelled, .taskInterrupted]

/-- The status a lifecycle kind announces.
mirrors web/src/api/sse.ts:959-971 -/
def expectedStatus : TaskEventKind → TaskStatus
  | .taskStarted => .running
  | .taskCompleted => .completed
  | .taskFailed => .failed
  | .taskCancelled => .cancelled
  | .taskInterrupted => .interrupted
  | _ => .queued

/-- mirrors web/src/api/sse.ts:985-997 -/
def isConsistentLifecycleTask (taskId : TaskId) (id : Nat) (kind : TaskEventKind) (task : Task) :
    Bool :=
  task.id = taskId ∧ task.status = expectedStatus kind ∧ task.lastEventId.get = id

/-- mirrors web/src/api/sse.ts:947-983 -/
def isKnownTaskEvent (taskId : TaskId) (id : Nat) (kind : String) (payload : TaskEventPayload) :
    Bool :=
  kindName payload.kind = kind &&
    match payload.task? with
    | some task => isConsistentLifecycleTask taskId id payload.kind task
    | none => true

/-- `/^[1-9]\d*$/` and `Number`. -/
def digits : List Char → Option Nat
  | [] => none
  | c :: cs =>
    if '1' ≤ c ∧ c ≤ '9' ∧ cs.all (fun d => '0' ≤ d ∧ d ≤ '9') then
      some ((c :: cs).foldl (fun n d => 10 * n + (d.toNat - '0'.toNat)) 0)
    else none

/-- mirrors web/src/api/sse.ts:1119-1134 -/
def parsePersistedId (value : Option String) : Except SseProtocolError Nat :=
  match value.bind fun text => digits text.toList with
  | none => .error ⟨.malformedEnvelope, "persisted SSE frame id must be a positive integer"⟩
  | some parsed =>
    if isSafeInteger parsed then .ok parsed
    else .error ⟨.malformedEnvelope, "persisted SSE frame id exceeded the safe integer range"⟩

/-! ## The decoder -/

/-- A frame with a persisted event, known or not.
mirrors web/src/api/sse.ts:890-932 -/
def decodePersisted (frame : SseFrame) (value : SseEnvelope) (kind : String)
    (schemaVersion : Nat) : Except SseProtocolError DecodedFrame := do
  let frameId ← parsePersistedId frame.id
  match guarded isPositiveSafeInteger value.id with
  | none => .error ⟨.malformedEnvelope, "persisted SSE data id must be a positive integer"⟩
  | some dataId =>
    if frameId ≠ dataId then
      .error ⟨.eventIdMismatch,
        "SSE id " ++ toString frameId ++ " disagreed with data id " ++ toString dataId⟩
    else if kind ∉ taskEventKinds.map kindName then
      .ok (.diagnostic
        ⟨kind, frameId, "ignored supported-schema event kind " ++ kind⟩ frameId)
    else
      let malformed : SseProtocolError :=
        ⟨.malformedEnvelope, "persisted " ++ kind ++ " envelope was malformed"⟩
      match value.taskId, value.createdAt, value.payload, EventId.new frameId with
      | some taskId, some createdAt, some payload, .ok id =>
        if isKnownTaskEvent taskId frameId kind payload then
          .ok (.message (.taskEvent ⟨id, schemaVersion, taskId, payload, createdAt⟩) (some frameId))
        else .error malformed
      | _, _, _, _ => .error malformed

/-- mirrors web/src/api/sse.ts:809-933 -/
def decodeFrame (frame : SseFrame) (schemaVersion : Nat) : Except SseProtocolError DecodedFrame :=
  match frame.data with
  | .invalid => .error ⟨.malformedJson, "SSE data was not valid JSON"⟩
  | .notRecord => .error ⟨.malformedEnvelope, "SSE data must be a JSON object"⟩
  | .record value =>
    match guarded isPositiveSafeInteger value.schemaVersion with
    | none =>
      .error ⟨.malformedEnvelope, "SSE envelope schema_version must be a positive integer"⟩
    | some bodySchema =>
      if bodySchema ≠ schemaVersion then
        .error ⟨.unsupportedSchema, "unsupported SSE schema version " ++ toString bodySchema⟩
      else
        match value.kind with
        | none | some "" =>
          .error ⟨.malformedEnvelope, "SSE envelope kind must be a non-empty string"⟩
        | some kind =>
          if frame.event ≠ kind then
            .error ⟨.eventKindMismatch,
              "SSE event " ++ frame.event ++ " disagreed with data kind " ++ kind⟩
          else if kind = "stream.reset" then
            match frame.id, guarded isNonNegativeSafeInteger value.latestEventId with
            | none, some latestEventId => .ok (.reset latestEventId)
            | _, _ =>
              .error ⟨.malformedEnvelope,
                "stream.reset must be id-less and carry a non-negative latest_event_id"⟩
          else if kind = "service.state" then
            match frame.id, guarded isNonNegativeSafeInteger value.generation, value.state with
            | none, some generation, some state =>
              .ok (.message (.serviceState state generation) none)
            | _, _, _ => .error ⟨.malformedEnvelope, "service.state envelope was malformed"⟩
          else decodePersisted frame value kind schemaVersion

/-! ## What a decoded frame says -/

theorem parsePersistedId_safe {value : Option String} {n : Nat}
    (h : parsePersistedId value = .ok n) : isSafeInteger n = true := by
  unfold parsePersistedId at h
  split at h
  · cases h
  · split at h
    · rename_i hs; cases h; exact hs
    · cases h

/-- A decoded message or diagnostic: an event carries its own persisted id and
the version of the client. -/
def DecodedFrame.Sound (schemaVersion : Nat) : DecodedFrame → Prop
  | .message (.taskEvent e) persistedId =>
    persistedId = some e.id.get ∧ e.schemaVersion = schemaVersion ∧ isSafeInteger e.id.get = true
  | .message (.serviceState ..) persistedId => persistedId = none
  | .diagnostic d persistedId => d.persistedId = persistedId ∧ isSafeInteger persistedId = true
  | .reset _ => True

theorem decodePersisted_sound {frame : SseFrame} {value : SseEnvelope} {kind : String}
    {schemaVersion : Nat} {decoded : DecodedFrame}
    (h : decodePersisted frame value kind schemaVersion = .ok decoded) :
    decoded.Sound schemaVersion := by
  unfold decodePersisted at h
  cases hp : parsePersistedId frame.id with
  | error e => rw [hp] at h; cases h
  | ok frameId =>
    have hsafe := parsePersistedId_safe hp
    rw [hp] at h
    change (match guarded isPositiveSafeInteger value.id with
      | none => _
      | some dataId => _) = _ at h
    split at h
    · cases h
    · split at h
      · cases h
      · split at h
        · cases h; exact ⟨rfl, hsafe⟩
        · dsimp only at h
          split at h
          · rename_i id hid
            split at h
            · unfold EventId.new at hid
              split at hid
              · cases hid; cases h; exact ⟨rfl, rfl, hsafe⟩
              · cases hid
            · cases h
          · cases h

theorem decodeFrame_sound {frame : SseFrame} {schemaVersion : Nat} {decoded : DecodedFrame}
    (h : decodeFrame frame schemaVersion = .ok decoded) : decoded.Sound schemaVersion := by
  unfold decodeFrame at h
  split at h
  · cases h
  · cases h
  · split at h
    · cases h
    · split at h
      · cases h
      · split at h
        · cases h
        · cases h
        · split at h
          · cases h
          · split at h
            · split at h
              · cases h; trivial
              · cases h
            · split at h
              · split at h
                · cases h; rfl
                · cases h
              · exact decodePersisted_sound h

end CodingAgent.L5.Web
