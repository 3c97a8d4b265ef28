import CodingAgent.L3Api.Contract
import CodingAgent.L3Api.Sse

/-!
# The bytes of a connection (`coding-agent-api/src/{sse,contract}.rs`)

Every frame of `connect` as the response carries it: a persisted event, a
control, or a heartbeat, which is a comment.
-/
namespace CodingAgent.L3.Api
open CodingAgent.L1.Domain

/-- mirrors crates/coding-agent-api/src/contract.rs:762-768 -/
def serviceStateDto : ServiceState → String
  | .ready => "ready"
  | .storeDegraded => "store_degraded"
  | .quiescing => "quiescing"

/-- mirrors crates/coding-agent-api/src/contract.rs:770-776 -/
def serviceStateControl (control : ServiceStateSnapshot) : List (String × Json) :=
  [("schema_version", .int (1 : Nat)), ("kind", .string "service.state"),
    ("state", .string (serviceStateDto control.state)), ("generation", .int control.generation)]

/-- mirrors crates/coding-agent-api/src/contract.rs:739-754 -/
def streamResetControl (latestEventId : Int) : List (String × Json) :=
  [("schema_version", .int (1 : Nat)), ("kind", .string "stream.reset"),
    ("latest_event_id", .int latestEventId)]

/-- The lines of a control, and the blank one.
mirrors crates/coding-agent-api/src/sse.rs:596-598 -/
def controlEvent (name : String) (value : List (String × Json)) : List (List Char) :=
  [eventField "event".toList name.toList, eventField "data".toList (Json.object value).print, []]

/-- `Event::comment`: a field without a name.
mirrors crates/coding-agent-api/src/sse.rs:592-594 -/
def heartbeatEvent : List (List Char) := [eventField [] "heartbeat".toList, []]

def frameLines : SseFrame → List (List Char)
  | .serviceState control => controlEvent "service.state" (serviceStateControl control)
  | .heartbeat => heartbeatEvent
  | .event e => persistedEvent e
  | .reset latestEventId => controlEvent "stream.reset" (streamResetControl latestEventId)

def frameText (frame : SseFrame) : List Char := (frameLines frame).flatMap (· ++ ['\n'])

def streamText (frames : List SseFrame) : List Char := frames.flatMap frameText

/-- What a connection has sent. -/
def streamBytes (frames : List SseFrame) : List UInt8 := Utf8.encode (streamText frames)

@[simp] theorem streamText_append (a b : List SseFrame) :
    streamText (a ++ b) = streamText a ++ streamText b := by
  simp [streamText]

@[simp] theorem streamText_cons (frame : SseFrame) (frames : List SseFrame) :
    streamText (frame :: frames) = frameText frame ++ streamText frames := rfl

theorem plain_serviceStateControl (control : ServiceStateSnapshot) :
    Json.Plain (.object (serviceStateControl control)) :=
  ⟨trivial, trivial, trivial, trivial, trivial⟩

theorem plain_streamResetControl (latestEventId : Int) :
    Json.Plain (.object (streamResetControl latestEventId)) :=
  ⟨trivial, trivial, trivial, trivial⟩

end CodingAgent.L3.Api
