import CodingAgent.L2Store.Records
import CodingAgent.L2Store.Runs

/-!
# Everything written is readable (`coding-agent-store`)

The reads of `crates/coding-agent-store/src/projection.rs` on the texts of the
rows, and what they return on a store that only its own operations have
written: every row decodes, to the value it was written from, so no read fails
because of a row.

* `Text.loadEvents_eq`, `Text.bootstrapSnapshot_eq`: the reads on texts are
  the reads on typed rows.
* `everything_readable`: the contract, for every reachable store.
-/
namespace CodingAgent.L2.Store
open CodingAgent.L1.Domain
open Serde

namespace Text

/-! ## Reads -/

/-- mirrors crates/coding-agent-store/src/tasks.rs:353-366 -/
def loadTask (taskId : TaskId) : Tx (Option Task) := fun db =>
  match optionally taskFromRecord ((db.tasks.find? fun r => r.id = taskId).map TaskRow.record) with
  | .ok task => .ok (task, db)
  | .error error => .error error

/-- mirrors crates/coding-agent-store/src/projection.rs:139-192 -/
def loadEvents (taskId : Option TaskId) (after : Nat) (page : Option (Nat × Nat)) :
    Tx (List TaskEvent) := fun db =>
  let records := (db.events.insertionSort fun a b => a.id ≤ b.id).filter fun r =>
    (match taskId with | none => true | some id => r.taskId = id) && after < r.id &&
      match page with | none => true | some (highWatermark, _) => r.id ≤ highWatermark
  let records := match page with | none => records | some (_, limit) => records.take (limitAsI64 limit)
  match (records.map EventRow.record).mapM eventFromRecord with
  | .ok events => .ok (events, db)
  | .error error => .error error

/-- mirrors crates/coding-agent-store/src/projection.rs:116-136 -/
def eventPage (taskId : Option TaskId) (after : Nat) (limit : Nat) : Tx EventPage := do
  let highWatermark ← latestEventCursor
  let events ← loadEvents taskId after (some (highWatermark, limit))
  pure { events, highWatermark }

/-- mirrors crates/coding-agent-store/src/projection.rs:94-100 -/
def eventsAfter (after : Nat) (limit : Nat) : Tx EventPage := eventPage none after limit

/-- mirrors crates/coding-agent-store/src/projection.rs:102-109 -/
def taskEventsAfter (taskId : TaskId) (after : Nat) (limit : Nat) : Tx EventPage :=
  eventPage (some taskId) after limit

/-- mirrors crates/coding-agent-store/src/projection.rs:81-92 -/
def taskDetail (taskId : TaskId) : Tx (Option TaskDetail) := do
  match ← loadTask taskId with
  | none => pure none
  | some task =>
    let events ← loadEvents (some taskId) 0 none
    let eventCursor ← latestEventCursor
    pure (some (projectTaskDetail task events eventCursor))

/-- mirrors crates/coding-agent-store/src/projection.rs:43-79 -/
def bootstrapSnapshot : Tx BootstrapSnapshot := fun db =>
  match (db.repositories.insertionSort repositoryOrder).mapM repositoryFromRecord with
  | .error error => .error error
  | .ok repositories =>
    match ((db.tasks.insertionSort bootstrapOrder).map TaskRow.record).mapM taskFromRecord with
    | .error error => .error error
    | .ok tasks =>
      match latestEventCursor db with
      | .error error => .error error
      | .ok (latestEventId, db) => .ok ({ repositories, tasks, latestEventId }, db)

/-! ## The reads on texts are the reads on rows -/

theorem mapM_map {α β γ ε : Type} {f : β → Except ε γ} {g : α → β} {k : α → Except ε γ}
    (h : ∀ a, f (g a) = k a) (l : List α) : (l.map g).mapM f = l.mapM k := by
  induction l with
  | nil => rfl
  | cons a l ih => rw [List.map_cons, List.mapM_cons, List.mapM_cons, h, ih]

theorem loadEvents_eq : loadEvents = Store.loadEvents := by
  funext taskId after page db
  simp only [loadEvents, mapM_map eventFromRecord_record]
  rfl

theorem loadTask_eq : loadTask = Store.loadTask := by
  funext taskId db
  cases hf : db.tasks.find? (fun r => decide (r.id = taskId)) with
  | none =>
    have hload : Store.loadTask taskId db = .ok (none, db) :=
      loadTaskWhere_ok.2 ⟨rfl, .inl ⟨rfl, hf⟩⟩
    rw [hload, loadTask, hf]
    rfl
  | some row =>
    have hselect : selectTask (fun r => decide (r.id = taskId)) db = .ok (some row, db) := by
      rw [selectTask, hf]
    have htext : optionally taskFromRecord ((some row).map TaskRow.record) =
        (Store.taskFromRecord row).map some := by
      rw [Option.map_some, optionally, taskFromRecord_record]
    rw [loadTask, hf, htext, Store.loadTask, loadTaskWhere, tx_bind_of_ok hselect]
    show _ = (Tx.lift (Store.taskFromRecord row) >>= fun task => pure (some task)) db
    cases Store.taskFromRecord row with
    | error error => rfl
    | ok task => rfl

theorem bootstrapSnapshot_eq : bootstrapSnapshot = Store.bootstrapSnapshot := by
  funext db
  simp only [bootstrapSnapshot, mapM_map taskFromRecord_record]
  rfl

theorem taskDetail_eq : taskDetail = Store.taskDetail := by
  funext taskId
  rw [taskDetail, loadTask_eq, loadEvents_eq]
  rfl

theorem eventPage_eq : eventPage = Store.eventPage := by
  funext taskId after limit
  rw [eventPage, Store.eventPage, loadEvents_eq]

end Text

/-- Every row a store holds decodes to the value it was written from, so every
read returns. -/
structure Readable (db : Db) : Prop where
  tasks : ∀ row ∈ db.tasks, ∃ task, Text.taskFromRecord row.record = .ok task ∧
    TaskRow.ofTask task = row
  events : ∀ row ∈ db.events, ∃ event, Text.eventFromRecord row.record = .ok event ∧
    EventRow.ofEvent event = row
  /-- The payload a row's text was written from is the one it decodes to. -/
  payloads : ∀ row ∈ db.events, ∀ payload : TaskEventPayload,
    row.record.kind = eventKindText payload.kind →
    row.record.payloadJson = payloadText (payloadJson payload) →
    ∃ event, Text.eventFromRecord row.record = .ok event ∧ event.payload = payload
  eventsAfter : ∀ after limit, ∃ page, Text.eventsAfter after limit db = .ok (page, db)
  taskEventsAfter : ∀ id after limit, ∃ page, Text.taskEventsAfter id after limit db = .ok (page, db)
  taskDetail : ∀ id, ∃ detail, Text.taskDetail id db = .ok (detail, db)
  bootstrapSnapshot : ∃ snapshot, Text.bootstrapSnapshot db = .ok (snapshot, db)

/-- What a call has written reads back as what it wrote: the events of the
call, a lifecycle event with the row it left, a running event with the payload
the caller gave. -/
structure Written (db : Db) (call : Call) : Prop where
  events : ∃ new : List TaskEvent,
    (call.run db).2.events = db.events ++ new.map EventRow.ofEvent ∧
      ∀ e ∈ new, Text.eventFromRecord (EventRow.ofEvent e).record = .ok e ∧
        ∀ t, e.payload.task? = some t → TaskRow.ofTask t ∈ (call.run db).2.tasks
  appended : ∀ id payload eventId, call.op = .appendRunningEvent id payload →
    (call.run db).1 = .ok (.append (.applied eventId)) → ∃ event,
      (call.run db).2.events = db.events ++ [EventRow.ofEvent event] ∧
        Text.eventFromRecord (EventRow.ofEvent event).record = .ok event ∧
        event.id = eventId ∧ event.taskId = id ∧ event.payload = payload

/-- The tree of a payload document determines its field. -/
theorem document_inj {α : Type} [Codec α] {n : String} {a b : α}
    (h : value (.object [(n, serialize a)]) = value (.object [(n, serialize b)])) : a = b := by
  have hvalue : value (serialize a) = value (serialize b) := by
    have hfield := congrArg (fun v => Text.payloadField v n) h
    simpa only [Text.payloadField_single, if_pos] using hfield
  have hread := Text.deserialize_value a
  rw [hvalue, Text.deserialize_value] at hread
  exact (Option.some.inj hread).symm

/-- The text of a payload and its kind name the payload. -/
theorem payloadText_inj {p q : TaskEventPayload} (hkind : p.kind = q.kind)
    (htext : payloadText (payloadJson p) = payloadText (payloadJson q)) : p = q := by
  have htree := Text.fromStr_payloadText (payloadJson q)
  rw [← htext, Text.fromStr_payloadText, Option.some.injEq] at htree
  cases p <;> cases q <;> cases hkind
  all_goals exact congrArg _ (document_inj htree)

theorem mapM_exists {α β ε : Type} {f : α → Except ε β} {l : List α}
    (h : ∀ a ∈ l, ∃ b, f a = .ok b) : ∃ bs, l.mapM f = .ok bs := by
  induction l with
  | nil => exact ⟨[], rfl⟩
  | cons a l ih =>
    obtain ⟨b, hb⟩ := h a List.mem_cons_self
    obtain ⟨bs, hbs⟩ := ih fun x hx => h x (List.mem_cons_of_mem a hx)
    exact ⟨b :: bs, by rw [List.mapM_cons, hb, hbs]; rfl⟩

section Reflects
variable {db : Db} {log : List TaskEvent}

theorem decode_event (h : Reflects db log) {row : EventRow} (hrow : row ∈ db.events) :
    ∃ event ∈ log, eventFromRecord row = .ok event ∧ EventRow.ofEvent event = row := by
  rw [h.events] at hrow
  obtain ⟨event, he, rfl⟩ := List.mem_map.1 hrow
  exact ⟨event, he, eventFromRecord_ofEvent (valid_eventOk h.valid event he), rfl⟩

theorem decode_task (h : Reflects db log) {row : TaskRow} (hrow : row ∈ db.tasks) :
    ∃ task, taskFromRecord row = .ok task ∧ TaskRow.ofTask task = row := by
  obtain ⟨t, ht, rfl⟩ := (h.rows row).1 hrow
  have hw := (valid_rowOf_some h.valid ht).wellFormed
  exact ⟨t, taskFromRecord_ok_iff.2 ⟨rfl, hw⟩, rfl⟩

/-- Whatever rows a read selects decode. -/
theorem loadEvents_ok (h : Reflects db log) (taskId : Option TaskId) (after : Nat)
    (page : Option (Nat × Nat)) : ∃ events, loadEvents taskId after page db = .ok (events, db) := by
  have hdecode : ∀ rows : List EventRow, (∀ r ∈ rows, r ∈ db.events) → ∃ events,
      (match rows.mapM eventFromRecord with
      | .ok events => .ok (events, db)
      | .error error => .error error : Except StoreError (List TaskEvent × Db)) =
        .ok (events, db) := by
    intro rows hsub
    have hall : ∀ r ∈ rows, ∃ event, eventFromRecord r = .ok event := by
      intro r hr
      obtain ⟨event, -, hok, -⟩ := decode_event h (hsub r hr)
      exact ⟨event, hok⟩
    obtain ⟨events, hevents⟩ := mapM_exists hall
    exact ⟨events, by rw [hevents]⟩
  have hselected : ∀ p : EventRow → Bool,
      ∀ r ∈ (db.events.insertionSort fun a b => a.id ≤ b.id).filter p, r ∈ db.events :=
    fun p r hr => (List.mem_insertionSort _).1 (List.mem_of_mem_filter hr)
  cases page with
  | none => exact hdecode _ (hselected _)
  | some page => exact hdecode _ fun r hr => hselected _ r (List.mem_of_mem_take hr)

theorem eventPage_ok (h : Reflects db log) (taskId : Option TaskId) (after limit : Nat) :
    ∃ page, eventPage taskId after limit db = .ok (page, db) := by
  obtain ⟨events, hload⟩ := loadEvents_ok h taskId after (some (latest log, limit))
  exact ⟨⟨events, latest log⟩,
    tx_bind_ok.2 ⟨_, _, latestEventCursor_reflects h, tx_bind_ok.2 ⟨_, _, hload, rfl⟩⟩⟩

/-- A store that reflects a log is readable. -/
theorem readable_reflects (h : Reflects db log) : Readable db where
  tasks row hrow := by
    obtain ⟨task, hok, heq⟩ := decode_task h hrow
    exact ⟨task, (Text.taskFromRecord_record row).trans hok, heq⟩
  events row hrow := by
    obtain ⟨event, -, hok, heq⟩ := decode_event h hrow
    exact ⟨event, (Text.eventFromRecord_record row).trans hok, heq⟩
  payloads row hrow payload hkind htext := by
    obtain ⟨event, -, hok, rfl⟩ := decode_event h hrow
    refine ⟨event, (Text.eventFromRecord_record _).trans hok, ?_⟩
    have hparse : parseEventKind (eventKindText event.kind) = .ok payload.kind := by
      rw [show eventKindText event.kind = eventKindText payload.kind from hkind]
      exact parseEventKind_text payload.kind
    have hkinds : event.payload.kind = payload.kind :=
      Except.ok.inj ((parseEventKind_text event.kind).symm.trans hparse)
    exact payloadText_inj hkinds htext
  eventsAfter after limit := by
    rw [Text.eventsAfter, Text.eventPage_eq]
    exact eventPage_ok h none after limit
  taskEventsAfter id after limit := by
    rw [Text.taskEventsAfter, Text.eventPage_eq]
    exact eventPage_ok h (some id) after limit
  taskDetail id := by
    rw [Text.taskDetail_eq]
    exact ⟨_, taskDetail_reflects h id⟩
  bootstrapSnapshot := by
    rw [Text.bootstrapSnapshot_eq]
    obtain ⟨snapshot, hok, -⟩ := bootstrapSnapshot_reflects h
    exact ⟨snapshot, hok⟩

theorem decode_logged (h : Reflects db log) {e : TaskEvent} (he : e ∈ log) :
    Text.eventFromRecord (EventRow.ofEvent e).record = .ok e :=
  (Text.eventFromRecord_record _).trans (eventFromRecord_ofEvent (valid_eventOk h.valid e he))

theorem written_reflects (h : Reflects db log) (call : Call) : Written db call where
  events := by
    obtain ⟨new, hg⟩ := Call.run_reflects h call
    refine ⟨new, ?_, fun e he => ⟨decode_logged hg.reflects (List.mem_append_right _ he), ?_⟩⟩
    · rw [hg.reflects.events, List.map_append, h.events]
    · intro t ht
      exact hg.reflects.mem_of_replay (hg.rows e he t ht)
  appended id payload eventId hop hreply := by
    have hok := Call.run_ok hreply
    rw [hop] at hok
    obtain ⟨out, hout, hrep⟩ := tx_map_ok.1 hok
    cases hrep
    rcases (appendRunningEvent_reflects h hout).2 with ⟨t, hout', -⟩ | ⟨t, id', now, hout', -, -, hr⟩
    · cases hout'
    · cases hout'
      refine ⟨_, ?_, decode_logged hr (List.mem_append_right _ List.mem_cons_self), rfl, rfl, rfl⟩
      rw [hr.events, List.map_append, h.events]
      rfl

end Reflects

/-- **Everything written is readable.** On every store that its own operations
can reach, and after any further call. -/
theorem everything_readable {db : Db} (h : store.Reachable db) :
    Readable db ∧ ∀ call, Written db call := by
  obtain ⟨log, hlog⟩ := reachable_reflects h
  exact ⟨readable_reflects hlog, written_reflects hlog⟩

/-- A store with a task that is running, and an entry with quotes, a control
character and the last instant of the calendar to append to it. -/
def sampleReadable : List StoreCall :=
  [sampleRegistration, .task (sampleCreation 2),
   .task ⟨sampleEnv 3, .transitionWithEvent ⟨2⟩ .queued .running, false⟩]

def sampleEntry : ActivityEntry where
  id := "a\"b"
  level := .warning
  message := "line\none\\ two é"
  createdAt := ⟨maxNanos, by decide, by decide⟩

theorem everything_readable_sample :
    let db := StoreCall.execAll (Db.migrated []) sampleReadable
    let call : Call := ⟨sampleEnv 4, .appendRunningEvent ⟨2⟩ (.activityAppended sampleEntry), false⟩
    (Readable db ∧ ∀ call, Written db call) ∧
      ((call.run db).2.events.map fun row => row.record.payloadJson).getLast? = some
        "\x7b\"entry\":\x7b\"created_at\":\"9999-12-31T23:59:59.999999999Z\",\"id\":\"a\\\"b\",\"level\":\"warning\",\"message\":\"line\\none\\\\ two é\"\x7d\x7d" :=
  ⟨everything_readable (reachable_execAll sampleReadable), by decide +kernel⟩

end CodingAgent.L2.Store
