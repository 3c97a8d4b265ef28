import CodingAgent.L2Store.Contract
import CodingAgent.L2Store.Runs

/-!
# The writing operations are atomic

Each operation runs several statements through invalid rows (`last_event_id` 0,
the placeholder payload). What its caller finds afterwards is one of:

* `Unchanged`: neither table of tasks changed. So for every error, an existing
  task, a conflict and a task that is not running.
* `AppendsOne`: one event with a new largest id, and one row changed.
* `Recovers`: what `recover_incomplete` did to the incomplete rows.
-/
namespace CodingAgent.L2.Store
open CodingAgent.L1.Domain

structure Unchanged (db db' : Db) : Prop where
  tasks : db'.tasks = db.tasks
  events : db'.events = db.events

/-- One event of task `id` is appended, its id larger than every id before, and
no other row changes. -/
structure AppendsOne (db db' : Db) (id : TaskId) (eventId : EventId) : Prop where
  event : ∃ r, db'.events = db.events ++ [r] ∧ r.id = eventId.get ∧ r.taskId = id
  maximal : ∀ r ∈ db.events, r.id < eventId.get
  row : ∃ row ∈ db'.tasks, row.id = id ∧ row.lastEventId = eventId.get
  frame : ∀ row, row.id ≠ id → (row ∈ db'.tasks ↔ row ∈ db.tasks)

/-- The incomplete rows are interrupted, each with one event of `new`, and `out`
describes `new`. -/
structure Recovers (db db' : Db) (now : UtcTimestamp) (failure : TaskFailure)
    (out : RecoveryOutcome) (new : List EventRow) : Prop where
  events : db'.events = db.events ++ new
  increasing : db'.events.Pairwise fun a b => a.id < b.id
  kinds : ∀ r ∈ new, r.kind = .taskInterrupted
  /-- one event for each incomplete row, in the order of `(created_at, id)` -/
  order : ∃ rows : List TaskRow, rows.Perm (db.tasks.filter fun r => isIncomplete r.status) ∧
    rows.Pairwise recoveryOrder ∧ new.map (·.taskId) = rows.map (·.id)
  changed : ∀ row ∈ db.tasks, isIncomplete row.status = true → ∃ r ∈ new, r.taskId = row.id ∧
    { recoveredRow now failure row with lastEventId := r.id } ∈ db'.tasks
  kept : ∀ row ∈ db.tasks, isIncomplete row.status = false → row ∈ db'.tasks
  ids : ∀ id, id ∈ db'.tasks.map (·.id) ↔ id ∈ db.tasks.map (·.id)
  count : out.interruptedCount = new.length
  first : out.firstEventId.map (·.get) = (new.map (·.id)).head?
  last : out.lastEventId.map (·.get) = (new.map (·.id)).getLast?
  highWatermark : out.highWatermark = (db'.events.map (·.id)).getLast?.getD 0

/-- What an operation with a given result may have done. -/
inductive Atomic (db db' : Db) : Operation → Except StoreError Reply → Prop
  | error {op : Operation} {error : StoreError} : Unchanged db db' → Atomic db db' op (.error error)
  | createExisting {input : NewTask} {task : Task} :
    Unchanged db db' → Atomic db db' (.createTask input) (.ok (.create (.existing task)))
  | created {input : NewTask} {task : Task} {eventId : EventId} :
    (∀ row ∈ db.tasks, row.id ≠ task.id) → TaskRow.ofTask task ∈ db'.tasks →
    AppendsOne db db' task.id eventId →
    Atomic db db' (.createTask input) (.ok (.create (.created task eventId)))
  | retryExisting {sourceId : TaskId} {task : Task} :
    Unchanged db db' → Atomic db db' (.retryTask sourceId) (.ok (.retry (.existing task)))
  | retried {sourceId : TaskId} {task : Task} {eventId : EventId} :
    (∀ row ∈ db.tasks, row.id ≠ task.id) → TaskRow.ofTask task ∈ db'.tasks →
    AppendsOne db db' task.id eventId →
    Atomic db db' (.retryTask sourceId) (.ok (.retry (.created task eventId)))
  | conflict {id : TaskId} {expected : TaskStatus} {transition : TaskTransition} {current : Task} :
    Unchanged db db' →
    Atomic db db' (.transitionWithEvent id expected transition)
      (.ok (.transition (.conflict current)))
  | applied {id : TaskId} {expected : TaskStatus} {transition : TaskTransition} {task : Task}
    {eventId : EventId} : TaskRow.ofTask task ∈ db'.tasks → AppendsOne db db' id eventId →
    Atomic db db' (.transitionWithEvent id expected transition)
      (.ok (.transition (.applied task eventId)))
  | notRunning {id : TaskId} {payload : TaskEventPayload} {current : Task} : Unchanged db db' →
    Atomic db db' (.appendRunningEvent id payload) (.ok (.append (.notRunning current)))
  | appended {id : TaskId} {payload : TaskEventPayload} {eventId : EventId} :
    AppendsOne db db' id eventId →
    Atomic db db' (.appendRunningEvent id payload) (.ok (.append (.applied eventId)))
  | recovered {now : UtcTimestamp} {failure : TaskFailure} {out : RecoveryOutcome} :
    (∃ new, Recovers db db' now failure out new) →
    Atomic db db' (.recoverIncomplete now failure) (.ok (.recovery out))

theorem Unchanged.refl (db : Db) : Unchanged db db := ⟨rfl, rfl⟩

/-! ## One event -/

theorem appended_events {db db' : Db} {log new : List TaskEvent} (h : Reflects db log)
    (h' : Reflects db' (log ++ new)) : db'.events = db.events ++ new.map EventRow.ofEvent := by
  rw [h'.events, h.events, List.map_append]

theorem appendsOne_reflects {db db' : Db} {log : List TaskEvent} {e : TaskEvent} {t : Task}
    (h : Reflects db log) (h' : Reflects db' (log ++ [e]))
    (ht : history.replay (log ++ [e]) e.taskId = some t) : AppendsOne db db' e.taskId e.id where
  event := ⟨EventRow.ofEvent e, appended_events h h', rfl, rfl⟩
  maximal := by
    intro r hr
    rw [h.events] at hr
    obtain ⟨x, hx, rfl⟩ := List.mem_map.1 hr
    exact h'.valid.beyond x hx e (List.mem_singleton.2 rfl)
  row := by
    obtain ⟨x, hx, hlast⟩ := (valid_rowOf_some h'.valid ht).last
    rw [EventModel.streamOf_snoc, if_pos (show history.stream e = e.taskId from rfl),
      List.getLast?_concat] at hx
    cases hx
    exact ⟨_, h'.mem_of_replay ht, h'.replay_id ht, congrArg EventId.get hlast⟩
  frame := by
    intro row hne
    rw [h'.rows, h.rows, replay_snoc_ne (Ne.symm hne)]

/-- The row of a new task. -/
theorem created_reflects {db db' : Db} {log : List TaskEvent} {t : Task} {eventId : EventId}
    {now : UtcTimestamp} (h : Reflects db log) (hnone : history.replay log t.id = none)
    (h' : Reflects db' (log ++ [TaskEvent.new eventId t.id (.taskQueued t) now])) :
    (∀ row ∈ db.tasks, row.id ≠ t.id) ∧ TaskRow.ofTask t ∈ db'.tasks ∧
      AppendsOne db db' t.id eventId := by
  have hself : history.replay (log ++ [TaskEvent.new eventId t.id (.taskQueued t) now]) t.id =
      some t := EventModel.replay_snoc_self _ _
  refine ⟨fun row hrow hid => ?_, h'.mem_of_replay hself, appendsOne_reflects h h' hself⟩
  obtain ⟨u, hu, -⟩ := (h.rows row).1 hrow
  rw [hid, hnone] at hu
  cases hu

/-! ## Recovery -/

instance : Std.Total recoveryOrder where
  total a b := by unfold recoveryOrder; omega

instance : IsTrans TaskRow recoveryOrder where
  trans a b c := by unfold recoveryOrder; omega

/-- The last id of a valid log is its largest. -/
theorem getLast?_latest {log : List TaskEvent} (h : history.Valid log) :
    (log.map fun e => e.id.get).getLast?.getD 0 = latest log := by
  induction log using List.reverseRecOn with
  | nil => rfl
  | append_singleton log e _ =>
    have hle : latest log ≤ e.id.get :=
      Nat.le_of_lt (latest_lt h e (List.mem_singleton.2 rfl))
    rw [latest_snoc, Nat.max_eq_right hle]
    simp

theorem recovers_reflects {db db' : Db} {log : List TaskEvent} {env : Env} {now : UtcTimestamp}
    {failure : TaskFailure} {out : RecoveryOutcome} (h : Reflects db log)
    (hok : recoverIncomplete env now failure db = .ok (out, db')) :
    ∃ new, Recovers db db' now failure out new := by
  obtain ⟨new, h', hfinal, hinter, -, hids, rfl⟩ := recoverIncomplete_reflects h hok
  have hkept := (recoverIncomplete_finalized h hok).kept
  simp only [incompleteTaskIds, Except.ok.injEq, Prod.mk.injEq, and_true] at hids
  -- the event of an incomplete row
  have hevent : ∀ row ∈ db.tasks, isIncomplete row.status = true →
      ∃ e ∈ new, e.taskId = row.id := by
    intro row hrow hinc
    have hmem : row.id ∈ new.map (·.taskId) := by
      rw [← hids]
      exact List.mem_map_of_mem ((List.mem_insertionSort _).2 (List.mem_filter.2 ⟨hrow, hinc⟩))
    obtain ⟨e, he, hid⟩ := List.mem_map.1 hmem
    exact ⟨e, he, hid⟩
  have hchanged : ∀ row ∈ db.tasks, isIncomplete row.status = true →
      ∃ r ∈ new.map EventRow.ofEvent, r.taskId = row.id ∧
        { recoveredRow now failure row with lastEventId := r.id } ∈ db'.tasks := by
    intro row hrow hinc
    obtain ⟨e, he, hid⟩ := hevent row hrow hinc
    obtain ⟨t, ht, -, -, hp⟩ := hinter e he
    obtain ⟨u, hp', -, -, hu⟩ := hfinal e he
    cases hp.symm.trans hp'
    obtain ⟨t', ht', hrow'⟩ := (h.rows row).1 hrow
    rw [← hid, ht] at ht'
    cases ht'
    refine ⟨EventRow.ofEvent e, List.mem_map_of_mem he, hid, ?_⟩
    have hmem := h'.mem_of_replay hu
    rw [hrow']
    exact hmem
  refine ⟨new.map EventRow.ofEvent, appended_events h h', increasing_reflects h', ?_,
    ⟨_, List.perm_insertionSort .., List.pairwise_insertionSort .., ?_⟩, hchanged,
    fun row hrow hterm => (hkept row hrow hterm).1, ?_, ?_, ?_, ?_, ?_⟩
  · intro r hr
    obtain ⟨e, he, rfl⟩ := List.mem_map.1 hr
    obtain ⟨t, -, -, -, hp⟩ := hinter e he
    show e.payload.kind = _
    rw [hp]
    rfl
  · rw [hids, List.map_map]
    rfl
  · intro id
    constructor
    · intro hid
      obtain ⟨row, hrow, rfl⟩ := List.mem_map.1 hid
      obtain ⟨t', ht', -⟩ := (h'.rows row).1 hrow
      obtain ⟨t, ht, -⟩ := replay_old h'.valid (fun e he hnone => by
        obtain ⟨u, hu, -⟩ := hinter e he
        cases hu.symm.trans hnone) ht'
      exact h.replay_id ht ▸ List.mem_map_of_mem (h.mem_of_replay ht)
    · intro hid
      obtain ⟨row, hrow, rfl⟩ := List.mem_map.1 hid
      cases hinc : isIncomplete row.status with
      | false => exact List.mem_map_of_mem (hkept row hrow hinc).1
      | true =>
        obtain ⟨r, -, -, hmem⟩ := hchanged row hrow hinc
        exact List.mem_map.2 ⟨_, hmem, rfl⟩
  · rw [List.length_map]
  · rw [List.map_map, List.head?_map, List.head?_map, Option.map_map]
    rfl
  · rw [List.map_map, List.getLast?_map, List.getLast?_map, Option.map_map]
    rfl
  · rw [h'.events, List.map_map]
    exact (getLast?_latest h'.valid).symm

/-! ## Every call -/

/-- **Atomic operations.** Whatever a call on a reachable store returns, it has
done to the tables exactly what its result says, and nothing when it failed. -/
theorem store_atomic {db : Db} (hdb : store.Reachable db) (call : Call) :
    Atomic db (call.run db).2 call.op (call.run db).1 := by
  obtain ⟨log, h⟩ := reachable_reflects hdb
  obtain ⟨env, op, fault⟩ := call
  simp only [Call.run]
  split
  · exact .error (.refl db)
  · split
    · rename_i reply db' hok
      cases op with
      | createTask input =>
        obtain ⟨out, hout, rfl⟩ := tx_map_ok.1 hok
        rcases createTask_reflects h hout with ⟨t, rfl, hdb', -⟩ | ⟨t, eventId, now, rfl, hn, -, hr⟩
        · rw [show db' = db from hdb']
          exact .createExisting (.refl db)
        · obtain ⟨hfresh, hrow, happ⟩ := created_reflects h hn hr
          exact .created hfresh hrow happ
      | retryTask sourceId =>
        obtain ⟨out, hout, rfl⟩ := tx_map_ok.1 hok
        rcases retryTask_reflects h hout with ⟨t, rfl, hdb', -⟩ | ⟨t, eventId, now, rfl, hn, -, hr⟩
        · rw [show db' = db from hdb']
          exact .retryExisting (.refl db)
        · obtain ⟨hfresh, hrow, happ⟩ := created_reflects h hn hr
          exact .retried hfresh hrow happ
      | transitionWithEvent id expected transition =>
        obtain ⟨out, hout, rfl⟩ := tx_map_ok.1 hok
        rcases transitionWithEvent_reflects h hout with ⟨t, rfl, hdb', -⟩ |
          ⟨t, eventId, now, payload, rfl, -, -, hp, hr⟩
        · rw [show db' = db from hdb']
          exact .conflict (.refl db)
        · obtain ⟨-, htask, -⟩ := lifecyclePayload_ok hp
          have hself : history.replay (log ++ [TaskEvent.new eventId id payload now]) id =
              some (transitionTask t transition now eventId) :=
            (EventModel.replay_snoc_self (m := history) log (TaskEvent.new eventId id payload now)).trans
              (applyEvent_task htask _)
          exact .applied (hr.mem_of_replay hself) (appendsOne_reflects h hr hself)
      | appendRunningEvent id payload =>
        obtain ⟨out, hout, rfl⟩ := tx_map_ok.1 hok
        obtain ⟨hpan, ⟨t, rfl, hdb', -⟩ | ⟨t, eventId, now, rfl, ht, -, hr⟩⟩ :=
          appendRunningEvent_reflects h hout
        · rw [show db' = db from hdb']
          exact .notRunning (.refl db)
        · have hself : history.replay (log ++ [TaskEvent.new eventId id payload now]) id =
              some { t with lastEventId := eventId } := by
            refine (EventModel.replay_snoc_self (m := history) log
              (TaskEvent.new eventId id payload now)).trans ?_
            rw [show history.stream (TaskEvent.new eventId id payload now) = id from rfl, ht]
            exact applyEvent_panel (e := TaskEvent.new eventId id payload now) hpan t
          exact .appended (appendsOne_reflects h hr hself)
      | recoverIncomplete now failure =>
        obtain ⟨out, hout, rfl⟩ := tx_map_ok.1 hok
        exact .recovered (recovers_reflects h hout)
    · exact .error (.refl db)

/-- A queued task, and the recovery that interrupts it. -/
theorem store_atomic_sample :
    let db := StoreCall.execAll (Db.migrated []) [sampleRegistration, .task (sampleCreation 2)]
    let recovery : Call := ⟨sampleEnv 3, .recoverIncomplete .epoch ⟨"RESTARTED", "", true⟩, false⟩
    Atomic db (recovery.run db).2 recovery.op (recovery.run db).1 ∧
      (recovery.run db).2.events.map (·.kind) = [.taskQueued, .taskInterrupted] :=
  ⟨store_atomic (reachable_execAll _) _, by decide +kernel⟩

end CodingAgent.L2.Store
