import CodingAgent.L2Store.Refine

/-!
# The contract of the task tables

Over every run of the five writing operations from a migrated store: the
events of a task form a word of the grammar, its row is what its events say,
and every lifecycle payload is the row as it stood when that event was
inserted.
-/
namespace CodingAgent.L2.Store
open CodingAgent.L1.Domain

/-- A task's events, in id order. -/
def Db.eventsOf (db : Db) (id : TaskId) : List EventRow := db.events.filter fun r => r.taskId = id

/-- What holds of one row and its task's events. -/
structure TaskContract (db : Db) (row : TaskRow) : Prop where
  word : Word ((db.eventsOf row.id).map (·.kind))
  status : lastStatus ((db.eventsOf row.id).map (·.kind)) = some row.status
  lastEventId : ∃ r ∈ db.eventsOf row.id, r.id = row.lastEventId ∧
    ∀ x ∈ db.eventsOf row.id, x.id ≤ row.lastEventId
  stored : ∃ task, taskFromRecord row = .ok task ∧ Task.tryFromStored task = .ok task

/-- `r` holds the row its task had right after `r` was inserted: some call
of the run inserted it, no event had its id before, and after that call the
table has exactly the payload. -/
def PayloadIsRow (db : Db) (calls : List Call) (r : EventRow) (task : Task) : Prop :=
  ∃ pre call post, calls = pre ++ call :: post ∧
    (∀ x ∈ (exec db pre).events, x.id < r.id) ∧ r ∈ (exec db (pre ++ [call])).events ∧
    (∀ row ∈ (exec db (pre ++ [call])).tasks, row.id = r.taskId → row = TaskRow.ofTask task) ∧
    TaskRow.ofTask task ∈ (exec db (pre ++ [call])).tasks

/-- The events of a terminal task are all it will ever have. -/
def TerminalFinal (db : Db) (more : List Call) : Prop :=
  ∀ id, (∃ r ∈ db.eventsOf id, r.kind.isTerminal = true) →
    (exec db more).eventsOf id = db.eventsOf id

/-- The contract of the whole store after a run. -/
structure StoreContract (repositories : List RepositoryRow) (calls : List Call) : Prop where
  increasing : (exec (Db.migrated repositories) calls).events.Pairwise fun a b => a.id < b.id
  tasks : ∀ row ∈ (exec (Db.migrated repositories) calls).tasks,
    TaskContract (exec (Db.migrated repositories) calls) row
  owned : ∀ r ∈ (exec (Db.migrated repositories) calls).events,
    ∃ row ∈ (exec (Db.migrated repositories) calls).tasks, row.id = r.taskId
  terminal : ∀ more, TerminalFinal (exec (Db.migrated repositories) calls) more
  payloads : ∀ r ∈ (exec (Db.migrated repositories) calls).events, r.kind.isLifecycle = true →
    ∃ task, r.payloadJson = .task task ∧ PayloadIsRow (Db.migrated repositories) calls r task

/-! ## From the log to the tables -/

theorem eventsOf_reflects {db : Db} {log : List TaskEvent} (h : Reflects db log) (id : TaskId) :
    db.eventsOf id = (history.streamOf log id).map EventRow.ofEvent := by
  rw [Db.eventsOf, h.events, List.filter_map]
  rfl

theorem kinds_reflects {db : Db} {log : List TaskEvent} (h : Reflects db log) (id : TaskId) :
    (db.eventsOf id).map (·.kind) = (history.streamOf log id).map (·.kind) := by
  rw [eventsOf_reflects h, List.map_map]
  rfl

theorem taskContract_reflects {db : Db} {log : List TaskEvent} (h : Reflects db log) {row : TaskRow}
    (hrow : row ∈ db.tasks) : TaskContract db row := by
  obtain ⟨t, ht, rfl⟩ := (h.rows row).1 hrow
  have hr := valid_rowOf_some h.valid ht
  refine ⟨?_, ?_, ?_, ?_⟩
  · rw [kinds_reflects h]; exact hr.trace.word
  · rw [kinds_reflects h]; exact hr.trace.lastStatus
  · obtain ⟨e, he, hl⟩ := hr.last
    rw [eventsOf_reflects h]
    refine ⟨EventRow.ofEvent e, List.mem_map_of_mem (List.mem_of_getLast? he), ?_, ?_⟩
    · show e.id.get = t.lastEventId.get
      rw [hl]
    · intro x hx
      obtain ⟨e', he', rfl⟩ := List.mem_map.1 hx
      exact hr.le e' he'
  · exact ⟨t, taskFromRecord_ok_iff.2 ⟨rfl, hr.wellFormed⟩,
      Task.tryFromStored_ok_iff.2 ⟨hr.wellFormed, rfl⟩⟩

/-- A terminal event names the status of the row. -/
theorem status_of_terminal {id : TaskId} {es : List TaskEvent} {t : Task} (h : RowOf id es t)
    (hex : ∃ e ∈ es, e.kind.isTerminal = true) : t.status.isRetryable = true := by
  obtain ⟨e, he, hk⟩ := hex
  have hmem : e.kind ∈ es.map (·.kind) := List.mem_map_of_mem he
  cases hst : t.status with
  | queued =>
    have htr := h.trace
    rw [hst] at htr
    rw [htr.of_queued, List.mem_singleton] at hmem
    rw [hmem] at hk; cases hk
  | running =>
    obtain ⟨panels, hp, hall⟩ := h.trace.of_running hst
    rw [hp] at hmem
    rcases List.mem_cons.1 hmem with hq | hmem
    · rw [hq] at hk; cases hk
    · rcases List.mem_cons.1 hmem with hs | hmem
      · rw [hs] at hk; cases hk
      · have := hall _ hmem
        revert hk this
        cases e.kind <;> simp [TaskEventKind.isTerminal, TaskEventKind.isPanel]
  | completed => rfl
  | failed => rfl
  | cancelled => rfl
  | interrupted => rfl

theorem terminalFinal_reflects {db : Db} {log : List TaskEvent} (h : Reflects db log) (more : List Call) :
    TerminalFinal db more := by
  intro id hex
  obtain ⟨new, hnew⟩ := exec_reflects h more
  rw [eventsOf_reflects h] at hex
  obtain ⟨r, hr, hk⟩ := hex
  obtain ⟨e, he, rfl⟩ := List.mem_map.1 hr
  rcases valid_rowOf h.valid id with ⟨hs, -⟩ | ⟨t, ht, hrow⟩
  · rw [hs] at he; cases he
  · have hterm := status_of_terminal hrow ⟨e, he, hk⟩
    rw [eventsOf_reflects hnew, eventsOf_reflects h, EventModel.streamOf_append,
      (valid_terminal_stable hnew.valid ht hterm).1, List.append_nil]

theorem increasing_reflects {db : Db} {log : List TaskEvent} (h : Reflects db log) :
    db.events.Pairwise fun a b => a.id < b.id := by
  rw [h.events, List.pairwise_map]
  exact h.valid.increasing

theorem owned_reflects {db : Db} {log : List TaskEvent} (h : Reflects db log) :
    ∀ r ∈ db.events, ∃ row ∈ db.tasks, row.id = r.taskId := by
  intro r hr
  rw [h.events] at hr
  obtain ⟨e, he, rfl⟩ := List.mem_map.1 hr
  rcases valid_rowOf h.valid e.taskId with ⟨hs, -⟩ | ⟨t, ht, hrow⟩
  · have hmem : e ∈ history.streamOf log e.taskId := EventModel.mem_streamOf.2 ⟨he, rfl⟩
    rw [hs] at hmem; cases hmem
  · exact ⟨TaskRow.ofTask t, h.mem_of_replay ht, hrow.id_eq⟩

/-- A payload that is the row stays one while the run goes on. -/
theorem PayloadIsRow.append {db : Db} {calls : List Call} {r : EventRow} {task : Task}
    (h : PayloadIsRow db calls r task) (more : List Call) :
    PayloadIsRow db (calls ++ more) r task := by
  obtain ⟨pre, call, post, rfl, hb, hmem, hrow, hin⟩ := h
  exact ⟨pre, call, post ++ more, by simp, hb, hmem, hrow, hin⟩

/-- The call that appends a lifecycle event leaves its payload as the row. -/
theorem payloadIsRow_snoc {db : Db} {calls : List Call} {call : Call} {log new : List TaskEvent}
    (h : Reflects (exec db calls) log) (hg : Grows (exec db (calls ++ [call])) log new) {e : TaskEvent}
    (he : e ∈ new) {task : Task} (ht : e.payload.task? = some task) :
    PayloadIsRow db (calls ++ [call]) (EventRow.ofEvent e) task := by
  have hrow := hg.rows e he task ht
  refine ⟨calls, call, [], rfl, ?_, ?_, ?_, hg.reflects.mem_of_replay hrow⟩
  · intro x hx
    rw [h.events] at hx
    obtain ⟨y, hy, rfl⟩ := List.mem_map.1 hx
    exact hg.reflects.valid.beyond y hy e he
  · rw [hg.reflects.events]
    exact List.mem_map_of_mem (List.mem_append_right log he)
  · intro row hmem hid
    obtain ⟨t, hrt, rfl⟩ := (hg.reflects.rows row).1 hmem
    have hid' : t.id = e.taskId := hid
    rw [ofTask_id, hid', hrow] at hrt
    cases hrt
    rfl

theorem payloadJson_task {p : TaskEventPayload} (h : p.kind.isLifecycle = true) :
    ∃ task, p.task? = some task ∧ payloadJson p = .task task := by
  cases p <;> first | exact ⟨_, rfl, rfl⟩ | cases h

theorem payloads_reflects {db : Db} (hdb : Reflects db []) (calls : List Call) :
    ∃ log, Reflects (exec db calls) log ∧ ∀ e ∈ log, e.kind.isLifecycle = true →
      ∃ task, e.payload.task? = some task ∧ (EventRow.ofEvent e).payloadJson = .task task ∧
        PayloadIsRow db calls (EventRow.ofEvent e) task := by
  induction calls using List.reverseRecOn with
  | nil => exact ⟨[], hdb, by simp⟩
  | append_singleton calls call ih =>
    obtain ⟨log, hr, hall⟩ := ih
    obtain ⟨new, hg⟩ := Call.run_reflects hr call
    rw [← exec_snoc] at hg
    refine ⟨log ++ new, hg.reflects, fun e he hk => ?_⟩
    rcases List.mem_append.1 he with he | he
    · obtain ⟨task, ht, hj, hp⟩ := hall e he hk
      exact ⟨task, ht, hj, hp.append [call]⟩
    · obtain ⟨task, ht, hj⟩ := payloadJson_task hk
      exact ⟨task, ht, hj, payloadIsRow_snoc hr hg he ht⟩

/-- **The store's contract.** It holds after every finite run of calls, with
any arguments, any outcomes and any repositories registered. -/
theorem storeContract_exec (repositories : List RepositoryRow) (calls : List Call) :
    StoreContract repositories calls := by
  obtain ⟨log, hr, hpay⟩ := payloads_reflects (reflects_migrated repositories) calls
  refine ⟨increasing_reflects hr, fun row hrow => taskContract_reflects hr hrow, owned_reflects hr,
    terminalFinal_reflects hr, fun r hmem hk => ?_⟩
  rw [hr.events] at hmem
  obtain ⟨e, he, rfl⟩ := List.mem_map.1 hmem
  obtain ⟨task, -, hj, hp⟩ := hpay e he hk
  exact ⟨task, hj, hp⟩

end CodingAgent.L2.Store
