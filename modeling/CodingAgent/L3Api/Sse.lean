import CodingAgent.Core.Broadcast
import CodingAgent.Core.Lts
import CodingAgent.L1Domain.ServiceState
import CodingAgent.L2Store.Projection

/-!
# The event stream of a connection (`coding-agent-api/src/sse.rs`)

`connect` from one suspension point to the next, against a log that grows, a
dispatcher that publishes it and a live stream that may lag or end. The source
has its replay and refill code three times, once for the first page, once for
the catch-up loop and once for the live loop; they differ only in the name a
failure is logged under, so they share their program points here.

A drain takes live items one at a time, with commits, publications and lags
between them; `poll` and `receive` say what the live stream answers. Yielding
frames may fail to serialise.

* `sse`: the transition system.
* `latestEventId_reflects`, `eventsBetween_reflects`: the backend's reads on a
  database.
-/
namespace CodingAgent.L3.Api
open CodingAgent.L1.Domain CodingAgent.L2.Store CodingAgent.IdLog

/-- `TaskEventDto::id`. -/
def eventKey (e : TaskEvent) : Int := e.id.get

def pageSize : Nat := 256

def readyLiveBatchSize : Nat := 256

def maxBufferedLiveEvents : Nat := 4096

def maxReadyServiceUpdates : Nat := 64

/-- A frame of the response. -/
inductive SseFrame where
  | serviceState (control : ServiceStateSnapshot)
  | heartbeat
  | event (e : TaskEvent)
  | reset (latestEventId : Int)
  deriving DecidableEq, Repr

/-! ## The backend -/

/-- mirrors crates/coding-agent-app/src/server.rs:830-837 -/
def latestEventId (log : List TaskEvent) : Int := latest log

/-- A page beyond `after`, cut at `through`; a negative cursor is refused.
mirrors crates/coding-agent-app/src/server.rs:839-856 -/
def eventsBetween (log : List TaskEvent) (after through : Int) (limit : Nat) :
    Option (List TaskEvent) :=
  if 0 ≤ after then
    some (((log.filter fun e => after < eventKey e).take (limitAsI64 limit)).filter
      fun e => eventKey e ≤ through)
  else none

/-- `Store::latest_event_id` is the latest id of the log. -/
theorem latestEventId_reflects {db : Db} {log : List TaskEvent} (h : Reflects db log) :
    ∃ cursor, latestEventCursor db = .ok (cursor, db) ∧ (cursor : Int) = latestEventId log :=
  ⟨latest log, latestEventCursor_reflects h, rfl⟩

/-- `ApplicationBackend::events_between`: a page of the store, cut at
`through`. -/
theorem eventsBetween_reflects {db : Db} {log : List TaskEvent} (h : Reflects db log)
    (after : Nat) (through : Int) (limit : Nat) :
    ∃ page, eventsAfter after limit db = .ok (page, db) ∧
      eventsBetween log after through limit =
        some (page.events.filter fun e => eventKey e ≤ through) := by
  refine ⟨_, eventPage_reflects h after limit, ?_⟩
  simp [eventsBetween, eventKey]

/-- `dedup_by_key`, after an element with this id. -/
def dedupAfter (id : EventId) : List TaskEvent → List TaskEvent
  | [] => []
  | e :: es => if e.id = id then dedupAfter id es else e :: dedupAfter e.id es

def dedupById : List TaskEvent → List TaskEvent
  | [] => []
  | e :: es => e :: dedupAfter e.id es

/-- mirrors crates/coding-agent-api/src/sse.rs:513-527 -/
def normalizePage (result : Option (List TaskEvent)) : Option (List TaskEvent) :=
  result.map fun page => dedupById (page.insertionSort fun a b => a.id.get ≤ b.id.get)

/-- Newest of the updates `coalesce_service` finds ready.
mirrors crates/coding-agent-api/src/sse.rs:484-511 -/
def coalesceService : List ServiceStateSnapshot → Option ServiceStateSnapshot
  | [] => none
  | first :: ready => some (ready.foldl
      (fun newest candidate =>
        if newest.generation < candidate.generation then candidate else newest) first)

/-- `BTreeMap::insert`, on the list of the map's values. -/
def bufferInsert (e : TaskEvent) : List TaskEvent → List TaskEvent
  | [] => [e]
  | b :: bs =>
    if e.id.get < b.id.get then e :: b :: bs
    else if e.id = b.id then e :: bs
    else b :: bufferInsert e bs

/-! ## The connection -/

/-- Where the stream is suspended. -/
inductive Pc where
  /-- in `current_service_state` -/
  | start
  /-- in `latest_event_id` -/
  | readHigh
  /-- in `events_between(last, high, _)` -/
  | readPage (high : Int)
  /-- in the loop over a page -/
  | page (high before : Int) (rest : List TaskEvent)
  /-- in `drain_ready_live`, with this many polls left -/
  | drain (left lagged : Nat)
  /-- in `yield_now` after a drain that ran out of polls -/
  | yieldNow (lagged : Nat)
  /-- in the loop over the taken buffer -/
  | flush (rest : List TaskEvent)
  /-- in the `select!` of the live loop -/
  | live
  | done
  deriving DecidableEq, Repr

structure SseState where
  log : List TaskEvent
  /-- the dispatcher's position -/
  published : Int
  /-- the unread items of the live stream -/
  queue : List (FeedItem TaskEvent)
  /-- the live stream may end -/
  ending : Bool
  pc : Pc
  last : Int
  initialHigh : Option Int
  serviceGeneration : Nat
  serviceClosed : Bool
  liveClosed : Bool
  buffered : List TaskEvent
  pendingRefills : Nat
  out : List SseFrame

inductive SseLabel where
  | commit (e : TaskEvent)
  | publish (e : TaskEvent)
  | lag (n : Nat)
  | endLive
  | serviceState (current : Option ServiceStateSnapshot) (serialized : Bool)
  | heartbeat
  | service (ready : List ServiceStateSnapshot) (ended serialized : Bool)
  | read (ok serialized : Bool)
  | emit (serialized : Bool)
  | poll (pending : Bool)
  | pollEnd
  | yielded
  | receive (serialized : Bool)
  | receiveEnd
  deriving DecidableEq, Repr

/-- A step of the stream itself; the others are of its environment. -/
def SseLabel.isOwn : SseLabel → Bool
  | .commit _ | .publish _ | .lag _ | .endLive => false
  | .serviceState .. | .heartbeat | .service .. | .read .. | .emit _ | .poll _ | .pollEnd
  | .yielded | .receive _ | .receiveEnd => true

namespace SseState

def yield (s : SseState) (frame : SseFrame) : SseState := { s with out := s.out ++ [frame] }

def terminate (s : SseState) : SseState := { s with pc := .done }

/-- A service update and what is yielded for it.
mirrors crates/coding-agent-api/src/sse.rs:66-76 -/
def onService (s : SseState) (ready : List ServiceStateSnapshot) (ended serialized : Bool) :
    SseState :=
  let s := { s with serviceClosed := s.serviceClosed || ended }
  match coalesceService ready with
  | none => s
  | some newest =>
    if s.serviceGeneration < newest.generation then
      if serialized then
        { s with serviceGeneration := newest.generation }.yield (.serviceState newest)
      else s.terminate
    else s

/-- The head of the live loop. -/
def toLive (s : SseState) : SseState :=
  if s.liveClosed ∧ s.serviceClosed then s.terminate else { s with pc := .live }

/-- The loop over what was buffered.
mirrors crates/coding-agent-api/src/sse.rs:261-272, 442-452 -/
def toFlush (s : SseState) : SseState := { s with pc := .flush s.buffered, buffered := [] }

/-- The head of the refill loops.
mirrors crates/coding-agent-api/src/sse.rs:153-154, 256-258, 325-326 -/
def refill (s : SseState) : SseState :=
  if 0 < s.pendingRefills then { s with pendingRefills := s.pendingRefills - 1, pc := .readHigh }
  else s.toFlush

def toDrain (s : SseState) : SseState := { s with pc := .drain readyLiveBatchSize 0 }

/-- After a drain.
mirrors crates/coding-agent-api/src/sse.rs:147-150, 252-255, 319-323 -/
def drained (s : SseState) (lagged : Nat) (exhausted : Bool) : SseState :=
  refill { s with pendingRefills := s.pendingRefills + (lagged + if exhausted then 1 else 0) }

/-- The head of the replay loop, and the drain after it.
mirrors crates/coding-agent-api/src/sse.rs:88, 137-146, 195, 243-251 -/
def replay (s : SseState) (high : Int) : SseState :=
  if s.last < high then { s with pc := .readPage high }
  else { s with buffered := s.buffered.filter fun e => s.last < eventKey e }.toDrain

/-- The latest id has been read.
mirrors crates/coding-agent-api/src/sse.rs:79-85, 188-194 -/
def onHigh (s : SseState) (high : Int) (serialized : Bool) : SseState :=
  let s := { s with initialHigh := s.initialHigh.or (some high) }
  if high < s.last then (if serialized then s.yield (.reset high) else s).terminate
  else s.replay high

/-- A drain, a flush or the live loop yields an event. -/
def yieldEvent (s : SseState) (e : TaskEvent) : SseState :=
  { s.yield (.event e) with last := eventKey e }

/-- The next event of a page, or its end.
mirrors crates/coding-agent-api/src/sse.rs:120-134 -/
def emitPage (s : SseState) (high before : Int) (rest : List TaskEvent) (serialized : Bool) :
    SseState :=
  match rest with
  | [] => if s.last = before then s.terminate else s.replay high
  | e :: rest =>
    if eventKey e ≤ s.last ∨ high < eventKey e then { s with pc := .page high before rest }
    else if serialized then { s.yieldEvent e with pc := .page high before rest }
    else s.terminate

/-- mirrors crates/coding-agent-api/src/sse.rs:261-272, 442-452 -/
def emitBuffered (s : SseState) (rest : List TaskEvent) (serialized : Bool) : SseState :=
  match rest with
  | [] => s.toLive
  | e :: rest =>
    if eventKey e ≤ s.last then { s with pc := .flush rest }
    else if serialized then { s.yieldEvent e with pc := .flush rest }
    else s.terminate

/-- A drain takes an event.
mirrors crates/coding-agent-api/src/sse.rs:549-559 -/
def bufferEvent (s : SseState) (e : TaskEvent) (left lagged : Nat) : SseState :=
  let s := { s with pc := .drain left lagged }
  if s.last < eventKey e then
    if ¬ s.buffered.any (fun b => b.id = e.id) ∧ maxBufferedLiveEvents ≤ s.buffered.length then
      s.terminate
    else { s with buffered := bufferInsert e s.buffered }
  else s

/-- One iteration of a drain; `pending` is a live stream with nothing ready.
mirrors crates/coding-agent-api/src/sse.rs:534-580 -/
def drainStep (s : SseState) (left lagged : Nat) (pending : Bool) : Option SseState :=
  match left with
  | 0 => some { s with pc := .yieldNow lagged }
  | left + 1 =>
    if s.liveClosed ∨ pending then some (s.drained lagged false)
    else
      match s.queue with
      | [] => none
      | .event e :: queue => some ({ s with queue }.bufferEvent e left lagged)
      | .lagged :: queue => some { s with queue, pc := .drain left (lagged + 1) }

/-- The live loop takes an item.
mirrors crates/coding-agent-api/src/sse.rs:299-324 -/
def receive (s : SseState) (serialized : Bool) : Option SseState :=
  match s.queue with
  | [] => none
  | .event e :: queue =>
    let s := { s with queue }
    some (if s.last < eventKey e then
        if serialized then (s.yieldEvent e).toLive else s.terminate
      else s.toLive)
  | .lagged :: queue => some { s with queue, buffered := [], pendingRefills := 1 }.toDrain

end SseState

/-- One step; `none` where the label is not enabled. -/
def sseNext (s : SseState) : SseLabel → Option SseState
  | .commit e =>
    if s.log.all (fun x => eventKey x < eventKey e) then some { s with log := s.log ++ [e] } else none
  | .publish e =>
    if Next eventKey s.log s.published e then
      some { s with published := eventKey e, queue := s.queue ++ [.event e] }
    else none
  | .lag n => some { s with queue := .lagged :: s.queue.drop n }
  | .endLive => some { s with ending := true }
  | .serviceState current serialized =>
    match s.pc, current with
    | .start, some control =>
      some (if serialized then
          { s with serviceGeneration := control.generation, pc := .readHigh }.yield
            (.serviceState control)
        else s.terminate)
    | .start, none => some s.terminate
    | _, _ => none
  | .heartbeat =>
    match s.pc with
    | .readHigh | .readPage _ => some (s.yield .heartbeat)
    | .live => some (s.yield .heartbeat)
    | _ => none
  | .service ready ended serialized =>
    if s.serviceClosed ∨ maxReadyServiceUpdates < ready.length ∨ (ready = [] ∧ ¬ ended) then none
    else
      match s.pc with
      | .readHigh | .readPage _ => some (s.onService ready ended serialized)
      | .live =>
        let s := s.onService ready ended serialized
        some (if s.pc = .done then s else s.toLive)
      | _ => none
  | .read ok serialized =>
    match s.pc with
    | .readHigh => some (if ok then s.onHigh (latestEventId s.log) serialized else s.terminate)
    | .readPage high =>
      match normalizePage (if ok then eventsBetween s.log s.last high pageSize else none) with
      | some page => some { s with pc := .page high s.last page }
      | none => some s.terminate
    | _ => none
  | .emit serialized =>
    match s.pc with
    | .page high before rest => some (s.emitPage high before rest serialized)
    | .flush rest => some (s.emitBuffered rest serialized)
    | _ => none
  | .poll pending =>
    match s.pc with
    | .drain left lagged => s.drainStep left lagged pending
    | _ => none
  | .pollEnd =>
    match s.pc with
    | .drain (_ + 1) lagged =>
      if s.ending then some ({ s with liveClosed := true }.drained lagged false) else none
    | _ => none
  | .yielded =>
    match s.pc with
    | .yieldNow lagged => some (s.drained lagged true)
    | _ => none
  | .receive serialized =>
    match s.pc with
    | .live => if s.liveClosed then none else s.receive serialized
    | _ => none
  | .receiveEnd =>
    match s.pc with
    | .live =>
      if s.ending ∧ ¬ s.liveClosed then some { s with liveClosed := true }.toLive else none
    | _ => none

/-- `connect(backend, after)`, just after its subscriptions. -/
def SseState.connect (log : List TaskEvent) (published after : Int) : SseState :=
  { log, published, queue := [], ending := false, pc := .start, last := after,
    initialHigh := none, serviceGeneration := 0, serviceClosed := false, liveClosed := false,
    buffered := [], pendingRefills := 0, out := [] }

/-- Every connection: the dispatcher stands nowhere above the log. -/
def sse (after : Int) : LTS SseState SseLabel :=
  LTS.ofFn (fun s => ∃ log published, Increasing eventKey log ∧ published ≤ latestEventId log ∧
    s = .connect log published after) sseNext

end CodingAgent.L3.Api
