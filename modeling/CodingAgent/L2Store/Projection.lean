import CodingAgent.L2Store.Refine

/-!
# Reads and the task projection (`coding-agent-store/src/projection.rs`)

Event pages, the bootstrap snapshot and `task_detail` with its fold
`project_task_detail`. A read runs in one transaction, so it sees one
database.

* `eventPage_reflects`, `taskDetail_reflects`, `bootstrapSnapshot_reflects`: what the
  reads return of a database that reflects a log.
* `detailAt`: the projection of a task cut at a version; `taskDetail_reflects`
  says that a read returns the one of the latest version.
-/
namespace CodingAgent.L2.Store
open CodingAgent.L1.Domain

/-- mirrors crates/coding-agent-store/src/projection.rs:19-24 -/
structure BootstrapSnapshot where
  repositories : List Repository
  tasks : List Task
  latestEventId : Nat
  deriving DecidableEq, Repr

/-- mirrors crates/coding-agent-store/src/projection.rs:26-35 -/
structure TaskDetail where
  task : Task
  plan : Option PlanSnapshot
  activity : List ActivityEntry
  diff : Option DiffSnapshot
  tests : Option TestSnapshot
  timeline : List TimelineEntry
  eventCursor : Nat
  deriving DecidableEq, Repr

/-- mirrors crates/coding-agent-store/src/projection.rs:37-41 -/
structure EventPage where
  events : List TaskEvent
  highWatermark : Nat
  deriving DecidableEq, Repr

/-! ## The fold -/

/-- mirrors crates/coding-agent-store/src/projection.rs:350-363 -/
def timelineLabel : TaskEventKind → String
  | .taskQueued => "Task queued"
  | .taskStarted => "Task started"
  | .taskCompleted => "Task completed"
  | .taskFailed => "Task failed"
  | .taskCancelled => "Task cancelled"
  | .taskInterrupted => "Task interrupted"
  | .planUpdated | .activityAppended | .diffUpdated | .testUpdated => ""

/-- mirrors crates/coding-agent-store/src/projection.rs:328-348 -/
def timelineEntry (event : TaskEvent) (taskFailure : Option TaskFailure) : TimelineEntry :=
  let kind := event.payload.kind
  let failure := match kind with
    | .taskFailed | .taskInterrupted => taskFailure
    | _ => none
  { eventId := event.id, kind, label := timelineLabel kind, createdAt := event.createdAt, failure }

/-- One step of the loop of `project_task_detail`. -/
def projectEvent (detail : TaskDetail) (event : TaskEvent) : TaskDetail :=
  match event.payload with
  | .planUpdated plan => { detail with plan := some plan }
  | .activityAppended entry =>
    if detail.activity.all fun existing => existing.id ≠ entry.id then
      { detail with activity := detail.activity ++ [entry] }
    else detail
  | .diffUpdated diff => { detail with diff := some diff }
  | .testUpdated tests => { detail with tests := some tests }
  | .taskQueued task | .taskStarted task | .taskCompleted task | .taskFailed task
  | .taskCancelled task | .taskInterrupted task =>
    { detail with timeline := detail.timeline ++ [timelineEntry event task.failure] }

/-- mirrors crates/coding-agent-store/src/projection.rs:284-326 -/
def projectTaskDetail (task : Task) (events : List TaskEvent) (eventCursor : Nat) :
    TaskDetail :=
  events.foldl projectEvent
    { task, plan := none, activity := [], diff := none, tests := none, timeline := [],
      eventCursor }

theorem projectTaskDetail_snoc (task : Task) (es : List TaskEvent) (e : TaskEvent) (c : Nat) :
    projectTaskDetail task (es ++ [e]) c = projectEvent (projectTaskDetail task es c) e := by
  rw [projectTaskDetail, List.foldl_append]; rfl

/-- Row and cursor pass through one step. -/
theorem projectEvent_with (d : TaskDetail) (e : TaskEvent) (task : Task) (c : Nat) :
    projectEvent { d with task := task, eventCursor := c } e =
      { projectEvent d e with task := task, eventCursor := c } := by
  obtain ⟨id, schema, taskId, payload, createdAt⟩ := e
  cases payload with
  | activityAppended entry => simp only [projectEvent]; split <;> rfl
  | _ => rfl

/-- Row and cursor pass through the fold. -/
theorem projectTaskDetail_with (task task' : Task) (es : List TaskEvent) (c c' : Nat) :
    projectTaskDetail task' es c' =
      { projectTaskDetail task es c with task := task', eventCursor := c' } := by
  induction es using List.reverseRecOn with
  | nil => rfl
  | append_singleton es e ih =>
    rw [projectTaskDetail_snoc, projectTaskDetail_snoc, ih, projectEvent_with]

@[simp] theorem projectTaskDetail_task (task : Task) (es : List TaskEvent) (c : Nat) :
    (projectTaskDetail task es c).task = task := by
  rw [projectTaskDetail_with task task es c c]

@[simp] theorem projectTaskDetail_eventCursor (task : Task) (es : List TaskEvent) (c : Nat) :
    (projectTaskDetail task es c).eventCursor = c := by
  rw [projectTaskDetail_with task task es c c]

/-! ## Reads -/

/-- mirrors crates/coding-agent-store/src/projection.rs:377-379 -/
def limitAsI64 (limit : Nat) : Nat := min limit (2 ^ 63 - 1)

/-- mirrors crates/coding-agent-store/src/projection.rs:139-192 -/
def loadEvents (taskId : Option TaskId) (after : Nat)
    (page : Option (Nat × Nat)) : Tx (List TaskEvent) := fun db =>
  let records := (db.events.insertionSort fun a b => a.id ≤ b.id).filter fun r =>
    (match taskId with | none => true | some id => r.taskId = id) && after < r.id &&
      match page with | none => true | some (highWatermark, _) => r.id ≤ highWatermark
  let records := match page with | none => records | some (_, limit) => records.take (limitAsI64 limit)
  match records.mapM eventFromRecord with
  | .ok events => .ok (events, db)
  | .error error => .error error

/-- mirrors crates/coding-agent-store/src/projection.rs:116-136 -/
def eventPage (taskId : Option TaskId) (after : Nat) (limit : Nat) : Tx EventPage := do
  let highWatermark ← latestEventCursor
  let events ← loadEvents taskId after (some (highWatermark, limit))
  pure { events, highWatermark }

/-- mirrors crates/coding-agent-store/src/projection.rs:94-100 -/
def eventsAfter (after : Nat) (limit : Nat) : Tx EventPage := eventPage none after limit

/-- mirrors crates/coding-agent-store/src/projection.rs:81-92 -/
def taskDetail (taskId : TaskId) : Tx (Option TaskDetail) := do
  match ← loadTask taskId with
  | none => pure none
  | some task =>
    let events ← loadEvents (some taskId) 0 none
    let eventCursor ← latestEventCursor
    pure (some (projectTaskDetail task events eventCursor))

/-- `ORDER BY created_at DESC, id`. -/
def bootstrapOrder (a b : TaskRow) : Prop :=
  b.createdAt.nanos < a.createdAt.nanos ∨
    (a.createdAt.nanos = b.createdAt.nanos ∧ a.id.uuid.toNat ≤ b.id.uuid.toNat)

instance : DecidableRel bootstrapOrder := fun a b =>
  inferInstanceAs (Decidable (b.createdAt.nanos < a.createdAt.nanos ∨
    (a.createdAt.nanos = b.createdAt.nanos ∧ a.id.uuid.toNat ≤ b.id.uuid.toNat)))

/-- `ORDER BY last_opened_at DESC, id`. -/
def repositoryOrder (a b : RepositoryRow) : Prop :=
  b.lastOpenedAt.nanos < a.lastOpenedAt.nanos ∨
    (a.lastOpenedAt.nanos = b.lastOpenedAt.nanos ∧ a.id.uuid.toNat ≤ b.id.uuid.toNat)

instance : DecidableRel repositoryOrder := fun a b =>
  inferInstanceAs (Decidable (b.lastOpenedAt.nanos < a.lastOpenedAt.nanos ∨
    (a.lastOpenedAt.nanos = b.lastOpenedAt.nanos ∧ a.id.uuid.toNat ≤ b.id.uuid.toNat)))

/-- mirrors crates/coding-agent-store/src/projection.rs:43-79 -/
def bootstrapSnapshot : Tx BootstrapSnapshot := fun db =>
  match (db.repositories.insertionSort repositoryOrder).mapM repositoryFromRecord with
  | .error error => .error error
  | .ok repositories =>
    match (db.tasks.insertionSort bootstrapOrder).mapM taskFromRecord with
    | .error error => .error error
    | .ok tasks =>
      match latestEventCursor db with
      | .error error => .error error
      | .ok (latestEventId, db) => .ok ({ repositories, tasks, latestEventId }, db)

/-! ## Reads of a reflecting database -/

theorem mapM_eq_ok {α β ε : Type} {f : α → Except ε β} {k : α → β} {l : List α}
    (h : ∀ a ∈ l, f a = .ok (k a)) : l.mapM f = .ok (l.map k) := by
  induction l with
  | nil => rfl
  | cons a l ih =>
    rw [List.mapM_cons, h a List.mem_cons_self, ih fun x hx => h x (List.mem_cons_of_mem a hx)]
    rfl

theorem mapM_ok {α β ε : Type} {f : α → Except ε β} {g : β → α} {l : List β}
    (h : ∀ b ∈ l, f (g b) = .ok b) : (l.map g).mapM f = .ok l := by
  induction l with
  | nil => rfl
  | cons b l ih =>
    rw [List.map_cons, List.mapM_cons, h b List.mem_cons_self,
      ih fun x hx => h x (List.mem_cons_of_mem b hx)]
    rfl

theorem latestEventCursor_reflects {db : Db} {log : List TaskEvent} (h : Reflects db log) :
    latestEventCursor db = .ok (latest log, db) := by
  simp only [latestEventCursor, h.events, List.map_map]
  rfl

/-- Rows are read in the order they were inserted. -/
theorem insertionSort_events {db : Db} {log : List TaskEvent} (h : Reflects db log) :
    db.events.insertionSort (fun a b => a.id ≤ b.id) = log.map EventRow.ofEvent := by
  rw [List.Pairwise.insertionSort_eq, h.events]
  rw [h.events, List.pairwise_map]
  exact h.valid.increasing.imp fun hlt => Nat.le_of_lt hlt

theorem decode_events {db : Db} {log es : List TaskEvent} (h : Reflects db log)
    (hsub : ∀ e ∈ es, e ∈ log) : (es.map EventRow.ofEvent).mapM eventFromRecord = .ok es :=
  mapM_ok fun e he => eventFromRecord_ofEvent (valid_eventOk h.valid e (hsub e he))

/-- All events of one task. -/
theorem loadEvents_task_reflects {db : Db} {log : List TaskEvent} (h : Reflects db log) (id : TaskId) :
    loadEvents (some id) 0 none db = .ok (history.streamOf log id, db) := by
  have hfilter : (log.map EventRow.ofEvent).filter
      (fun r => decide (r.taskId = id) && decide (0 < r.id) && true) =
      (history.streamOf log id).map EventRow.ofEvent := by
    rw [List.filter_map]
    congr 1
    refine List.filter_congr fun e _ => ?_
    show (decide (e.taskId = id) && decide (0 < e.id.get) && true) = decide (e.taskId = id)
    simp [e.id.pos]
  simp only [loadEvents, insertionSort_events h, hfilter]
  rw [decode_events h fun e he => (EventModel.mem_streamOf.1 he).1]

/-- A page of the whole log. -/
theorem eventPage_reflects {db : Db} {log : List TaskEvent} (h : Reflects db log) (after : Nat)
    (limit : Nat) : eventsAfter after limit db = .ok
      (⟨(log.filter fun e => after < e.id.get).take (limitAsI64 limit), latest log⟩, db) := by
  have hfilter : (log.map EventRow.ofEvent).filter
      (fun r => true && decide (after < r.id) && decide (r.id ≤ latest log)) =
      (log.filter fun e => after < e.id.get).map EventRow.ofEvent := by
    rw [List.filter_map]
    congr 1
    refine List.filter_congr fun e he => ?_
    show (true && decide (after < e.id.get) && decide (e.id.get ≤ latest log)) =
      decide (after < e.id.get)
    simp [le_latest e he]
  have hload : loadEvents none after (some (latest log, limit)) db = .ok
      ((log.filter fun e => after < e.id.get).take (limitAsI64 limit), db) := by
    simp only [loadEvents, insertionSort_events h, hfilter, ← List.map_take]
    rw [decode_events h fun e he => List.mem_of_mem_filter (List.mem_of_mem_take he)]
  refine tx_bind_ok.2 ⟨_, _, latestEventCursor_reflects h, tx_bind_ok.2 ⟨_, _, hload, rfl⟩⟩

/-- The projection of a task cut at a version of the log. -/
def detailAt (log : List TaskEvent) (id : TaskId) (v : Nat) : Option TaskDetail :=
  (rowAt log id v).map fun task =>
    projectTaskDetail task (history.streamOf (history.cut v log) id) v

theorem detailAt_iff {log : List TaskEvent} {id : TaskId} {v : Nat} {d : TaskDetail} :
    detailAt log id v = some d ↔ ∃ row, rowAt log id v = some row ∧
      d = projectTaskDetail row (history.streamOf (history.cut v log) id) v := by
  rw [detailAt, Option.map_eq_some_iff]
  exact ⟨fun ⟨row, h, h'⟩ => ⟨row, h, h'.symm⟩, fun ⟨row, h, h'⟩ => ⟨row, h, h'.symm⟩⟩

theorem loadTask_reflects {db : Db} {log : List TaskEvent} (h : Reflects db log) (id : TaskId) :
    loadTask id db = .ok (history.replay log id, db) := by
  refine loadTaskWhere_ok.2 ⟨rfl, ?_⟩
  cases ht : history.replay log id with
  | none => exact .inl ⟨rfl, by rw [h.find, ht]; rfl⟩
  | some t =>
    have hr := valid_rowOf_some h.valid ht
    exact .inr ⟨_, t, rfl, by rw [h.find, ht]; rfl,
      taskFromRecord_ok_iff.2 ⟨rfl, hr.wellFormed⟩⟩

/-- **`task_detail`.** -/
theorem taskDetail_reflects {db : Db} {log : List TaskEvent} (h : Reflects db log) (id : TaskId) :
    taskDetail id db = .ok (detailAt log id (latest log), db) := by
  have hcut : history.cut (latest log) log = log := EventModel.cut_self le_latest
  refine tx_bind_ok.2 ⟨_, _, loadTask_reflects h id, ?_⟩
  rw [detailAt, rowAt, hcut]
  cases history.replay log id with
  | none => rfl
  | some t =>
    refine tx_bind_ok.2 ⟨_, _, loadEvents_task_reflects h id, ?_⟩
    exact tx_bind_ok.2 ⟨_, _, latestEventCursor_reflects h, rfl⟩

/-- The row a detail is read with. -/
theorem taskDetail_row {db db' : Db} {log : List TaskEvent} (h : Reflects db log) {id : TaskId}
    {detail : TaskDetail} (hd : taskDetail id db = .ok (some detail, db')) :
    history.replay log id = some detail.task ∧ detail.task.id = id := by
  rw [taskDetail_reflects h, Except.ok.injEq, Prod.mk.injEq] at hd
  obtain ⟨row, hrow, rfl⟩ := detailAt_iff.1 hd.1
  rw [rowAt_latest] at hrow
  rw [projectTaskDetail_task]
  exact ⟨hrow, h.replay_id hrow⟩

/-- **`bootstrap_snapshot`.** Every row of the log, once, at its latest id. -/
theorem bootstrapSnapshot_reflects {db : Db} {log : List TaskEvent} (h : Reflects db log) :
    ∃ snapshot, bootstrapSnapshot db = .ok (snapshot, db) ∧ snapshot.latestEventId = latest log ∧
      (∀ t, t ∈ snapshot.tasks ↔ history.replay log t.id = some t) ∧
      (snapshot.tasks.map (·.id)).Nodup := by
  have hrow : ∀ r ∈ db.tasks, ∃ t, history.replay log t.id = some t ∧ r = TaskRow.ofTask t := by
    intro r hr
    obtain ⟨t, ht, rfl⟩ := (h.rows r).1 hr
    exact ⟨t, ht, rfl⟩
  -- the sorted rows as the rows of a list of tasks
  have hlist : ∀ rows : List TaskRow, (∀ r ∈ rows, r ∈ db.tasks) →
      ∃ ts : List Task, rows = ts.map TaskRow.ofTask ∧ ∀ t ∈ ts, history.replay log t.id = some t := by
    intro rows
    induction rows with
    | nil => exact fun _ => ⟨[], rfl, by simp⟩
    | cons r rows ih =>
      intro hsub
      obtain ⟨t, ht, rfl⟩ := hrow r (hsub r List.mem_cons_self)
      obtain ⟨ts, rfl, hts⟩ := ih fun x hx => hsub x (List.mem_cons_of_mem _ hx)
      exact ⟨t :: ts, rfl, by simpa [ht] using hts⟩
  obtain ⟨ts, hts, hall⟩ := hlist (db.tasks.insertionSort bootstrapOrder)
    fun r hr => (List.mem_insertionSort _).1 hr
  have hdecode : (db.tasks.insertionSort bootstrapOrder).mapM taskFromRecord = .ok ts := by
    rw [hts]
    refine mapM_ok fun t ht => ?_
    have hr := valid_rowOf_some h.valid (hall t ht)
    exact taskFromRecord_ok_iff.2 ⟨rfl, hr.wellFormed⟩
  have hrepositories : (db.repositories.insertionSort repositoryOrder).mapM repositoryFromRecord =
      .ok ((db.repositories.insertionSort repositoryOrder).map (·.repository)) :=
    mapM_eq_ok fun row _ => repositoryFromRecord_eq row
  refine ⟨_, by simp only [bootstrapSnapshot, hrepositories, hdecode, latestEventCursor_reflects h]; rfl,
    rfl, ?_, ?_⟩
  · intro t
    refine ⟨hall t, fun ht => ?_⟩
    have hmem := h.mem_of_replay ht
    rw [← List.mem_insertionSort bootstrapOrder, hts] at hmem
    obtain ⟨t', ht', heq⟩ := List.mem_map.1 hmem
    rw [← ofTask_inj heq]; exact ht'
  · have hperm : (ts.map TaskRow.ofTask).Perm db.tasks := by
      rw [← hts]; exact List.perm_insertionSort ..
    have hids : ts.map (·.id) = (ts.map TaskRow.ofTask).map (·.id) := by
      rw [List.map_map]; rfl
    show (ts.map (·.id)).Nodup
    rw [hids]
    exact (hperm.map _).nodup_iff.2 h.nodup

/-- The repositories of a snapshot. -/
theorem bootstrapSnapshot_repositories {db db' : Db} {snapshot : BootstrapSnapshot}
    (h : bootstrapSnapshot db = .ok (snapshot, db')) :
    snapshot.repositories = (db.repositories.insertionSort repositoryOrder).map (·.repository) := by
  have hrepositories : (db.repositories.insertionSort repositoryOrder).mapM repositoryFromRecord =
      .ok ((db.repositories.insertionSort repositoryOrder).map (·.repository)) :=
    mapM_eq_ok fun row _ => repositoryFromRecord_eq row
  unfold bootstrapSnapshot at h
  rw [hrepositories] at h
  dsimp only at h
  split at h
  · cases h
  · split at h
    · cases h
    · cases h
      rfl

end CodingAgent.L2.Store
