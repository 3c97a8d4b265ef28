import CodingAgent.Core.IdLog
import CodingAgent.Core.Lts
import CodingAgent.L5Web.Reducer
import CodingAgent.L5Web.SseFrame

/-!
# The stream client and the reducer (`web/src/api/sse.ts`, `useAgentState.ts`)

`SseClient` between two awaits, with the callbacks that
`createSseAgentStreamFactory` gives it and the reducer they dispatch to. A
label is what the client waits for (a response, a frame, the end of a
callback, of a sleep or of a bootstrap), an action of the rest of the hook, a
`stop`, or an event committed by the server. Delays are not modelled; any wait
may end.

The cursor is kept twice, in the client (`#lastAppliedId`) and in the reducer
(`appliedEventId`). `segments` records the persisted ids handed to `onMessage`
and `onDiagnostic` since each start or recovery.

* `stream`: the transition system.
* `Obeys`: what a server that replays without gaps sends.
-/
namespace CodingAgent.L5.Web
open CodingAgent.L1.Domain CodingAgent.IdLog

/-! ## The client -/

/-- mirrors web/src/api/sse.ts:337-340 -/
inductive TransientReason where
  | cleanEof
  | transport
  | httpTransient
  | protocolRecovered
  deriving DecidableEq, Repr

def TransientReason.text : TransientReason → String
  | .cleanEof => "clean-eof"
  | .transport => "transport"
  | .httpTransient => "http-transient"
  | .protocolRecovered => "protocol-recovered"

/-- mirrors web/src/api/sse.ts:276-303 -/
inductive SseClientState where
  | connecting
  | open
  | reconnecting (reason : TransientReason)
  | recovering (reason : SseProtocolError)
  | unavailable (reason : SseProtocolError)
  | sessionExpired
  | stopped
  deriving DecidableEq, Repr

/-- mirrors web/src/api/sse.ts:342-354 -/
inductive ConnectionExit where
  | stopped
  | sessionExpired
  | transient (reason : TransientReason)
  | protocol (reason : SseProtocolError)
  deriving DecidableEq, Repr

/-- How the fetch of `#openOnce` settles. -/
inductive FetchResult where
  | failed
  | response (status : Nat) (contentType : Option String) (body : Bool)
  deriving DecidableEq, Repr

/-- mirrors web/src/api/sse.ts:1180-1182 -/
def isTransientStatus (status : Nat) : Bool :=
  status = 408 ∨ status = 429 ∨ (500 ≤ status ∧ status ≤ 599)

/-- mirrors web/src/api/sse.ts:1173-1178 -/
def isEventStreamContentType (contentType : Option String) : Bool :=
  match contentType with
  | none => false
  | some text =>
    let media := (text.toList.takeWhile (· ≠ ';')).dropWhile Char.isWhitespace
    ((media.reverse.dropWhile Char.isWhitespace).reverse.map Char.toLower) =
      "text/event-stream".toList

/-- The exits of `#openOnce` before it reads; `none` is an open stream.
mirrors web/src/api/sse.ts:525-590 -/
def FetchResult.exit : FetchResult → Option ConnectionExit
  | .failed => some (.transient .transport)
  | .response status contentType body =>
    if status = 401 then some .sessionExpired
    else if ¬ (200 ≤ status ∧ status ≤ 299) then
      if isTransientStatus status then some (.transient .httpTransient)
      else some (.protocol
        ⟨.httpError, "event stream returned non-success status " ++ toString status⟩)
    else if ¬ isEventStreamContentType contentType then
      some (.protocol ⟨.invalidContentType,
        "expected text/event-stream, received " ++ contentType.getD "no content type"⟩)
    else if ¬ body then
      some (.protocol ⟨.malformedEnvelope, "event stream response did not contain a body"⟩)
    else none

/-- Where the client is suspended. -/
inductive ClientPc where
  /-- before the first bootstrap -/
  | unstarted
  /-- in `fetch` -/
  | fetching
  /-- in `reader.read()`, or between two frames of a chunk -/
  | reading
  /-- in `onMessage` for an event with this id -/
  | projecting (persistedId : Option Nat) (dispatched : Bool)
  /-- in `onDiagnostic` -/
  | diagnosing (dispatched : Bool)
  /-- in the sleep of `#run` -/
  | waiting
  /-- in the `recover` callback -/
  | recovering (reason : SseProtocolError)
  /-- the `recover` callback resolved to this cursor -/
  | installed (reason : SseProtocolError) (cursor : Nat)
  /-- in the sleep of `#recover` -/
  | unavailable (reason : SseProtocolError)
  | ended
  deriving DecidableEq, Repr

/-- The ids handed to the callbacks since a start or a recovery at `cursor`. -/
structure Segment where
  cursor : Nat
  handed : List Nat
  deriving DecidableEq, Repr

structure StreamState where
  /-- ids of the persisted events of the server -/
  log : List Nat
  /-- the cursor of the server on the open connection -/
  sent : Nat
  lastAppliedId : Nat
  stopped : Bool
  pc : ClientPc
  agent : AgentState
  past : List Segment
  segment : Segment

inductive StreamLabel where
  | append (id : Nat)
  | view (action : AgentAction)
  | stop
  | initialized (bootstrap : BootstrapResponse)
  | initializeFailed (expired : Bool) (reason : String)
  | fetched (result : FetchResult)
  | frame (frame : SseFrame) (dispatched : Bool)
  | readFailed
  | parserFailed (error : SseProtocolError)
  | eof
  | callback (ok : Bool)
  | waited (ok : Bool)
  | bootstrapReceived (bootstrap : BootstrapResponse)
  | recoveryFailed (expired : Bool)
  | resumed

/-- What the hook dispatches besides the cursor actions of its stream. -/
def AgentAction.isHookAction : AgentAction → Bool
  | .bootstrapReceived _ | .eventReceived _ | .eventUnknown .. | .connectionChanged .. => false
  | .bootstrapFailed _ protocol => !protocol
  | .bootstrapStarted | .sessionExpired | .repositoryUpserted _ | .taskUpserted _
  | .taskSelected _ | .detailReceived .. | .detailFailed .. | .serviceReceived ..
  | .cancelStarted _ | .cancelSucceeded _ | .cancelFailed .. => true

namespace StreamState

def dispatch (s : StreamState) (action : AgentAction) : StreamState :=
  { s with agent := agentReducer s.agent action }

/-- `expireSession`.
mirrors web/src/state/useAgentState.ts:193-204 -/
def expireSession (s : StreamState) : StreamState :=
  { s.dispatch .sessionExpired with stopped := true }

/-- `projectSseState`.
mirrors web/src/state/useAgentState.ts:113-139 -/
def onState (s : StreamState) : SseClientState → StreamState
  | .connecting => s.dispatch (.connectionChanged .reconnecting none)
  | .open => s.dispatch (.connectionChanged .live none)
  | .reconnecting reason => s.dispatch (.connectionChanged .reconnecting (some reason.text))
  | .recovering reason => s.dispatch (.connectionChanged .recovering (some reason.message))
  | .unavailable reason => s.dispatch (.connectionChanged .unavailable (some reason.message))
  | .sessionExpired => s.expireSession
  | .stopped => s

def end_ (s : StreamState) : StreamState := { s.onState .stopped with pc := .ended }

/-- The head of the loop of `#run`. -/
def connect (s : StreamState) : StreamState := { s.onState .connecting with pc := .fetching }

/-- What `#run` does with the result of `#openOnce`.
mirrors web/src/api/sse.ts:438-500 -/
def exit (s : StreamState) : ConnectionExit → StreamState
  | .stopped => s.end_
  | .sessionExpired => { s.onState .sessionExpired with pc := .ended }
  | .transient reason => { s.onState (.reconnecting reason) with pc := .waiting }
  | .protocol reason => { s.onState (.recovering reason) with pc := .recovering reason }

/-- `start`, as the hook calls it with the cursor of the bootstrap it has just
dispatched.
mirrors web/src/api/sse.ts:402-418, web/src/state/useAgentState.ts:219-246 -/
def start (s : StreamState) (bootstrap : BootstrapResponse) : StreamState :=
  let s := s.dispatch (.bootstrapReceived bootstrap)
  if isNonNegativeSafeInteger bootstrap.latestEventId then
    connect { s with lastAppliedId := bootstrap.latestEventId
                     segment := ⟨bootstrap.latestEventId, []⟩ }
  else
    { s.dispatch (.connectionChanged .unavailable
        (some "SSE cursor must be a non-negative safe integer")) with pc := .ended }

/-- The callbacks of `createSseAgentStreamFactory`.
mirrors web/src/state/useAgentState.ts:154-170 -/
def onMessage (s : StreamState) : SseMessage → StreamState
  | .taskEvent event => s.dispatch (.eventReceived event)
  | .serviceState state generation => s.dispatch (.serviceReceived state generation)

def onDiagnostic (s : StreamState) (d : SseDiagnostic) : StreamState :=
  s.dispatch (.eventUnknown d.persistedId d.event supportedSchemaVersion)

def hand (s : StreamState) (ids : List Nat) : StreamState :=
  { s with segment := ⟨s.segment.cursor, s.segment.handed ++ ids⟩ }

/-- `#applyFrame` up to the await of its callback; `dispatched` says whether
the callback gets as far as its dispatch.
mirrors web/src/api/sse.ts:677-719 -/
def applyFrame (s : StreamState) (frame : SseFrame) (dispatched : Bool) : StreamState :=
  match decodeFrame frame supportedSchemaVersion with
  | .error error => s.exit (.protocol error)
  | .ok (.reset latestEventId) =>
    s.exit (.protocol
      ⟨.streamReset, "server requested a stream reset at event " ++ toString latestEventId⟩)
  | .ok decoded =>
    if decoded.persistedId = some s.lastAppliedId then s
    else if decoded.persistedId.any (· < s.lastAppliedId) then
      s.exit (.protocol ⟨.nonMonotonicId,
        "persisted event " ++ toString (decoded.persistedId.getD 0) ++ " followed cursor " ++
          toString s.lastAppliedId⟩)
    else
      match decoded with
      | .diagnostic diagnostic persistedId =>
        let s := { s.hand [persistedId] with lastAppliedId := persistedId }
        { (if dispatched then s.onDiagnostic diagnostic else s) with pc := .diagnosing dispatched }
      | .message message persistedId =>
        let s := s.hand persistedId.toList
        { (if dispatched then s.onMessage message else s) with
          pc := .projecting persistedId dispatched }
      | .reset _ => s

/-- A rejected callback ends the connection.
mirrors web/src/api/sse.ts:704-715, 1136-1155 -/
def callbackFailed (s : StreamState) (message : String) : StreamState :=
  if s.stopped then s.end_ else s.exit (.protocol ⟨.projectionError, message⟩)

/-- `#applyFrame` after the await. -/
def callback (s : StreamState) (ok : Bool) : Option StreamState :=
  match s.pc, ok with
  | .projecting persistedId true, true =>
    some { s with lastAppliedId := persistedId.getD s.lastAppliedId, pc := .reading }
  | .diagnosing true, true => some { s with pc := .reading }
  | .projecting _ _, false =>
    some (s.callbackFailed "event projection callback rejected a validated SSE message")
  | .diagnosing _, false => some (s.callbackFailed "unexpected SSE projection failure")
  | _, _ => none

/-- A failed attempt of `#recover`.
mirrors web/src/api/sse.ts:742-765 -/
def recoveryFailed (s : StreamState) (reason : SseProtocolError) (expired : Bool) : StreamState :=
  if s.stopped then s.end_
  else if expired then s.exit .sessionExpired
  else { s.onState (.unavailable reason) with pc := .unavailable reason }

/-- `#recover` once its callback has resolved, and the rest of `#run`.
mirrors web/src/api/sse.ts:739-741, 448-481 -/
def resume (s : StreamState) (reason : SseProtocolError) (cursor : Nat) : StreamState :=
  if s.stopped then s.end_
  else if isNonNegativeSafeInteger cursor then
    exit { s with lastAppliedId := cursor, past := s.past ++ [s.segment], segment := ⟨cursor, []⟩ }
      (.transient .protocolRecovered)
  else s.recoveryFailed reason false

/-- A settled read; every branch of the loop checks `#stopped` first. -/
def whileReading (s : StreamState) (next : StreamState) : Option StreamState :=
  match s.pc with
  | .reading => some (if s.stopped then s.end_ else next)
  | _ => none

end StreamState

/-- The server's cursor after a frame. -/
def sentAfter (sent : Nat) (frame : SseFrame) : Nat :=
  match decodeFrame frame supportedSchemaVersion with
  | .ok decoded => max sent (decoded.persistedId.getD 0)
  | .error _ => sent

/-- One step; `none` where the label is not enabled. -/
def streamNext (s : StreamState) : StreamLabel → Option StreamState
  | .append id => if s.log.all (· < id) then some { s with log := s.log ++ [id] } else none
  | .view action => if action.isHookAction then some (s.dispatch action) else none
  | .stop => some { s with stopped := true }
  | .initialized bootstrap =>
    match s.pc with
    | .unstarted => some (if s.stopped then s.end_ else s.start bootstrap)
    | _ => none
  | .initializeFailed expired reason =>
    match s.pc with
    | .unstarted => some (if s.stopped then s.end_ else if expired then s.exit .sessionExpired
        else { s.dispatch (.bootstrapFailed reason false) with pc := .ended })
    | _ => none
  | .fetched result =>
    match s.pc with
    | .fetching => some (if s.stopped then s.end_ else
        match result.exit with
        | some exit => s.exit exit
        | none => { s.onState .open with pc := .reading, sent := s.lastAppliedId })
    | _ => none
  | .frame frame dispatched =>
    s.whileReading
      (StreamState.applyFrame { s with sent := sentAfter s.sent frame } frame dispatched)
  | .readFailed => s.whileReading (s.exit (.transient .transport))
  | .parserFailed error => s.whileReading (s.exit (.protocol error))
  | .eof => s.whileReading (s.exit (.transient .cleanEof))
  | .callback ok => s.callback ok
  | .waited ok =>
    match s.pc with
    | .waiting => some (if s.stopped ∨ ¬ ok then s.end_ else s.connect)
    | .unavailable reason =>
      some (if s.stopped ∨ ¬ ok then s.end_ else { s with pc := .recovering reason })
    | _ => none
  | .bootstrapReceived bootstrap =>
    match s.pc with
    | .recovering reason => some (if s.stopped then s.end_ else
        { s.dispatch (.bootstrapReceived bootstrap) with
          pc := .installed reason bootstrap.latestEventId })
    | _ => none
  | .recoveryFailed expired =>
    match s.pc with
    | .recovering reason => some (s.recoveryFailed reason expired)
    | _ => none
  | .resumed =>
    match s.pc with
    | .installed reason cursor => some (s.resume reason cursor)
    | _ => none

def StreamState.init (log : List Nat) : StreamState :=
  { log, sent := 0, lastAppliedId := 0, stopped := false, pc := .unstarted,
    agent := initialAgentState, past := [], segment := ⟨0, []⟩ }

def stream : LTS StreamState StreamLabel :=
  LTS.ofFn (fun s => ∃ log, Increasing id log ∧ s = .init log) streamNext

/-- The gapless replay law: beyond the cursor of its connection the server
sends the next event of the log; it may repeat what it has sent. -/
def Obeys (s : StreamState) : StreamLabel → Prop
  | .frame frame _ =>
    match decodeFrame frame supportedSchemaVersion with
    | .ok decoded => ∀ n ∈ decoded.persistedId, n ≤ s.sent ∨ Next id s.log s.sent n
    | .error _ => True
  | _ => True

instance (s : StreamState) (l : StreamLabel) : Decidable (Obeys s l) := by
  unfold Obeys
  split
  · split <;> infer_instance
  · infer_instance

end CodingAgent.L5.Web
