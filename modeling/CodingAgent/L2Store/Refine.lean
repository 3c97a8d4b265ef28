import CodingAgent.L2Store.History
import CodingAgent.L2Store.Ops

/-!
# The store refines the task histories

`Reflects db log`: the tables hold exactly what `log` says. Every operation that
succeeds takes a database that reflects a log to one whose log has some more
admissible events; one that fails leaves the database as it was.

* `createTask_reflects`, `retryTask_reflects`, `transitionWithEvent_reflects`,
  `appendRunningEvent_reflects`, `recoverIncomplete_reflects`: the events each
  operation appends, and what its outcome says about the rows.
* `Call.run_reflects`, `exec_reflects`: one call, and runs of any length.
-/
namespace CodingAgent.L2.Store
open CodingAgent.L1.Domain

structure Reflects (db : Db) (log : List TaskEvent) : Prop where
  valid : history.Valid log
  events : db.events = log.map EventRow.ofEvent
  rows : ∀ row, row ∈ db.tasks ↔ ∃ t, history.replay log row.id = some t ∧ row = TaskRow.ofTask t
  nodup : (db.tasks.map (·.id)).Nodup
  seq : ∀ e ∈ log, e.id.get ≤ db.seq

theorem reflects_migrated (repositories : List RepositoryRow) : Reflects (Db.migrated repositories) [] where
  valid := .nil
  events := rfl
  rows row := by simp [Db.migrated, EventModel.replay, EventModel.streamOf, history]
  nodup := List.nodup_nil
  seq e he := by cases he

@[simp] theorem ofTask_id (t : Task) : (TaskRow.ofTask t).id = t.id := rfl

@[simp] theorem ofTask_status (t : Task) : (TaskRow.ofTask t).status = t.status := rfl

theorem ofTask_inj {a b : Task} (h : TaskRow.ofTask a = TaskRow.ofTask b) : a = b := by
  cases a; cases b
  simp only [TaskRow.ofTask, TaskRow.mk.injEq] at h
  obtain ⟨rfl, rfl, rfl, rfl, rfl, hattempt, rfl, rfl, rfl, rfl, hid, rfl⟩ := h
  rw [EventId.ext_get hid, UInt32.toNat_inj.1 hattempt]

namespace Reflects

variable {db db' : Db} {log : List TaskEvent}

theorem replay_id (h : Reflects db log) {id : TaskId} {t : Task}
    (ht : history.replay log id = some t) : t.id = id :=
  (valid_rowOf_some h.valid ht).id_eq

theorem mem_of_replay (h : Reflects db log) {id : TaskId} {t : Task}
    (ht : history.replay log id = some t) : TaskRow.ofTask t ∈ db.tasks := by
  refine (h.rows _).2 ⟨t, ?_, rfl⟩
  rw [ofTask_id, h.replay_id ht]; exact ht

theorem replay_of_mem (h : Reflects db log) {t : Task} (ht : TaskRow.ofTask t ∈ db.tasks) :
    history.replay log t.id = some t := by
  obtain ⟨t', ht', heq⟩ := (h.rows _).1 ht
  cases ofTask_inj heq
  exact ht'

theorem events_le (h : Reflects db log) : ∀ r ∈ db.events, r.id ≤ db.seq := by
  intro r hr
  rw [h.events] at hr
  obtain ⟨e, he, rfl⟩ := List.mem_map.1 hr
  exact h.seq e he

/-- The row the tables have of a task. -/
theorem find (h : Reflects db log) (id : TaskId) :
    db.tasks.find? (fun r => r.id = id) = (history.replay log id).map TaskRow.ofTask := by
  cases hr : db.tasks.find? (fun r => r.id = id) with
  | none =>
    cases ht : history.replay log id with
    | none => rfl
    | some t =>
      have hmem := h.mem_of_replay ht
      have := List.find?_eq_none.1 hr _ hmem
      simp [h.replay_id ht] at this
  | some row =>
    have hid : row.id = id := by simpa using List.find?_some hr
    obtain ⟨t, ht, rfl⟩ := (h.rows row).1 (List.mem_of_find?_eq_some hr)
    rw [hid] at ht
    rw [ht]; rfl

theorem find_some (h : Reflects db log) {id : TaskId} {t : Task}
    (hf : db.tasks.find? (fun r => r.id = id) = some (TaskRow.ofTask t)) :
    history.replay log id = some t := by
  rw [h.find] at hf
  obtain ⟨t', ht', heq⟩ := Option.map_eq_some_iff.1 hf
  rw [ht', ofTask_inj heq]

theorem find_none (h : Reflects db log) {id : TaskId}
    (hf : db.tasks.find? (fun r => r.id = id) = none) : history.replay log id = none := by
  rw [h.find, Option.map_eq_none_iff] at hf
  exact hf

/-- An event appended beyond the sequence keeps the log valid. -/
theorem valid_snoc (h : Reflects db log) {e : TaskEvent} (hlt : db.seq < e.id.get)
    (ha : Admissible (history.replay log e.taskId) e) : history.Valid (log ++ [e]) :=
  .snoc h.valid (fun x hx => Nat.lt_of_le_of_lt (h.seq x hx) hlt) ha

theorem seq_snoc (h : Reflects db log) {e : TaskEvent} (hlt : db.seq < e.id.get) :
    ∀ x ∈ log ++ [e], x.id.get ≤ e.id.get := by
  intro x hx
  rcases List.mem_append.1 hx with hx | hx
  · have := h.seq x hx; omega
  · rw [List.mem_singleton.1 hx]

/-- One row rewritten and one event appended. -/
theorem update (h : Reflects db log) {e : TaskEvent} {t t' : Task} {f : TaskRow → TaskRow}
    (ht : history.replay log e.taskId = some t) (hlt : db.seq < e.id.get)
    (ha : Admissible (some t) e) (happly : applyEvent (some t) e = some t')
    (hid : ∀ r, (f r).id = r.id) (hf : f (TaskRow.ofTask t) = TaskRow.ofTask t')
    (hother : ∀ r ∈ db.tasks, r.id ≠ e.taskId → f r = r)
    (htasks : db'.tasks = db.tasks.map f)
    (hevents : db'.events = db.events ++ [EventRow.ofEvent e]) (hseq : db'.seq = e.id.get) :
    Reflects db' (log ++ [e]) := by
  have hvalid := h.valid_snoc hlt (by rw [ht]; exact ha)
  have hself : history.replay (log ++ [e]) e.taskId = some t' := by
    rw [← happly, ← ht]; exact EventModel.replay_snoc_self log e
  have hne : ∀ id, id ≠ e.taskId → history.replay (log ++ [e]) id = history.replay log id := by
    intro id hid'
    rw [EventModel.replay_snoc]
    exact if_neg fun heq => hid' heq.symm
  refine ⟨hvalid, by rw [hevents, h.events]; simp, ?_, ?_, by rw [hseq]; exact h.seq_snoc hlt⟩
  · intro row
    rw [htasks, List.mem_map]
    constructor
    · rintro ⟨r, hr, rfl⟩
      obtain ⟨u, hu, hru⟩ := (h.rows r).1 hr
      rw [hid]
      by_cases hrid : r.id = e.taskId
      · rw [hrid, ht] at hu
        cases hu
        rw [hrid, hru]
        exact ⟨t', hself, hf⟩
      · rw [hother r hr hrid, hne _ hrid]
        exact ⟨u, hu, hru⟩
    · rintro ⟨u, hu, rfl⟩
      by_cases hrid : u.id = e.taskId
      · rw [ofTask_id, hrid, hself] at hu
        cases hu
        exact ⟨TaskRow.ofTask t, h.mem_of_replay ht, hf⟩
      · rw [ofTask_id, hne _ hrid] at hu
        exact ⟨TaskRow.ofTask u, h.mem_of_replay hu, hother _ (h.mem_of_replay hu) hrid⟩
  · rw [htasks, List.map_map]
    have : ((fun r : TaskRow => r.id) ∘ f) = fun r => r.id := funext hid
    rw [this]; exact h.nodup

/-- One row inserted and its first event appended. -/
theorem insert (h : Reflects db log) {e : TaskEvent} {t' : Task}
    (ht : history.replay log e.taskId = none) (hlt : db.seq < e.id.get)
    (ha : Admissible none e) (happly : applyEvent none e = some t') (hid : t'.id = e.taskId)
    (htasks : db'.tasks = db.tasks ++ [TaskRow.ofTask t'])
    (hevents : db'.events = db.events ++ [EventRow.ofEvent e]) (hseq : db'.seq = e.id.get) :
    Reflects db' (log ++ [e]) := by
  have hvalid := h.valid_snoc hlt (by rw [ht]; exact ha)
  have hself : history.replay (log ++ [e]) e.taskId = some t' := by
    rw [← happly, ← ht]; exact EventModel.replay_snoc_self log e
  have hne : ∀ id, id ≠ e.taskId → history.replay (log ++ [e]) id = history.replay log id := by
    intro id hid'
    rw [EventModel.replay_snoc]
    exact if_neg fun heq => hid' heq.symm
  have hnew : ∀ r ∈ db.tasks, r.id ≠ e.taskId := by
    intro r hr heq
    obtain ⟨u, hu, -⟩ := (h.rows r).1 hr
    rw [heq, ht] at hu; cases hu
  refine ⟨hvalid, by rw [hevents, h.events]; simp, ?_, ?_, by rw [hseq]; exact h.seq_snoc hlt⟩
  · intro row
    rw [htasks, List.mem_append, List.mem_singleton]
    constructor
    · rintro (hr | rfl)
      · obtain ⟨u, hu, hru⟩ := (h.rows row).1 hr
        exact ⟨u, by rw [hne _ (hnew row hr)]; exact hu, hru⟩
      · exact ⟨t', by rw [ofTask_id, hid]; exact hself, rfl⟩
    · rintro ⟨u, hu, rfl⟩
      by_cases hrid : u.id = e.taskId
      · rw [ofTask_id, hrid, hself] at hu
        cases hu
        exact .inr rfl
      · rw [ofTask_id, hne _ hrid] at hu
        exact .inl (h.mem_of_replay hu)
  · rw [htasks, List.map_append, List.nodup_append]
    refine ⟨h.nodup, by simp, ?_⟩
    intro a hma b hmb
    obtain ⟨r, hr, rfl⟩ := List.mem_map.1 hma
    simp only [List.map_cons, List.map_nil, List.mem_singleton, ofTask_id] at hmb
    rw [hmb, hid]
    exact hnew r hr

end Reflects

/-! ## Lifecycle events -/

theorem eventOk_lifecycle {kind : TaskEventKind} {task : Task} {payload : TaskEventPayload}
    {id : TaskId} {eventId : EventId} {now : UtcTimestamp}
    (hp : lifecyclePayload kind task = .ok payload) (hw : task.WellFormed) (hid : task.id = id)
    (hl : task.lastEventId = eventId) (hk : kind = lifecycleKind task.status) :
    EventOk (TaskEvent.new eventId id payload now) where
  schema := rfl
  task := by
    intro t ht
    obtain ⟨hkind, htask, -⟩ := lifecyclePayload_ok hp
    rw [show (TaskEvent.new eventId id payload now).payload = payload from rfl, htask] at ht
    cases ht
    exact ⟨hw, hid, hl, hkind.trans hk⟩

theorem eventOk_panel {payload : TaskEventPayload} (h : payload.kind.isPanel = true)
    (id : TaskId) (eventId : EventId) (now : UtcTimestamp) :
    EventOk (TaskEvent.new eventId id payload now) where
  schema := rfl
  task := by
    intro t ht
    rw [show (TaskEvent.new eventId id payload now).payload = payload from rfl,
      (TaskEventPayload.task?_isNone_iff _).2 h] at ht
    cases ht

/-- Inserting a queued row and appending its event. -/
theorem insertQueued_reflects {db db₁ db' : Db} {log : List TaskEvent} {env : Env} {row : TaskRow}
    {now : UtcTimestamp} {task : Task} {eventId : EventId} {u : Unit} (h : Reflects db log)
    (hq : row.status = .queued) (hins : insertTask row db = .ok (u, db₁))
    (happ : appendLifecycleEvent env row.id .taskQueued now db₁ = .ok ((task, eventId), db')) :
    history.replay log row.id = none ∧
      TaskRow.ofTask task = { row with lastEventId := eventId.get } ∧
      Reflects db' (log ++ [TaskEvent.new eventId row.id (.taskQueued task) now]) := by
  obtain ⟨⟨hfresh, -⟩, rfl⟩ := insertTask_ok hins
  obtain ⟨payload, hp, hlt, hdb', hfind, hw⟩ := appendLifecycleEvent_ok happ h.events_le
  have htasks : db'.tasks = db.tasks ++ [{ row with lastEventId := eventId.get }] := by
    rw [hdb']
    simp only [List.map_append, List.map_cons, List.map_nil, if_true]
    congr 1
    rw [List.map_congr_left (g := id), List.map_id]
    intro r hr
    simp [hfresh r hr]
  have htask : TaskRow.ofTask task = { row with lastEventId := eventId.get } := by
    rw [htasks, List.find?_append, List.find?_eq_none.2 (by simpa using hfresh)] at hfind
    simpa using hfind.symm
  have hid : task.id = row.id := congrArg TaskRow.id htask
  have hst : task.status = .queued := (congrArg TaskRow.status htask).trans hq
  have hl : task.lastEventId = eventId := EventId.ext_get (congrArg TaskRow.lastEventId htask)
  have hnone : history.replay log row.id = none := by
    refine h.find_none (List.find?_eq_none.2 ?_)
    simpa using hfresh
  cases hp
  refine ⟨hnone, htask, ?_⟩
  exact h.insert hnone hlt
    ⟨eventOk_lifecycle rfl hw hid hl (by rw [hst, lifecycleKind]), .queued rfl⟩
    rfl hid (by rw [htasks, htask]) (by rw [hdb']) (by rw [hdb']; rfl)

/-- **`create_task`.** -/
theorem createTask_reflects {db db' : Db} {log : List TaskEvent} {env : Env} {input : NewTask}
    {out : CreateTaskOutcome} (h : Reflects db log) (hok : createTask env input db = .ok (out, db')) :
    (∃ t, out = .existing t ∧ db' = db ∧ history.replay log t.id = some t) ∨
    (∃ t eventId now, out = .created t eventId ∧ history.replay log t.id = none ∧
      t.status = .queued ∧ Reflects db' (log ++ [TaskEvent.new eventId t.id (.taskQueued t) now])) := by
  obtain ⟨new, -, ⟨t, rfl, rfl, hmem, -⟩ | ⟨t, eventId, now, db₁, rfl, hins, happ⟩⟩ := createTask_ok hok
  · exact .inl ⟨t, rfl, rfl, h.replay_of_mem hmem⟩
  · obtain ⟨hnone, htask, hrepr⟩ := insertQueued_reflects h rfl hins happ
    have hid : t.id = env.taskId := congrArg TaskRow.id htask
    refine .inr ⟨t, eventId, now, rfl, ?_, congrArg TaskRow.status htask, ?_⟩
    · rw [hid]; exact hnone
    · rw [hid]; exact hrepr

/-- **`retry_task`.** -/
theorem retryTask_reflects {db db' : Db} {log : List TaskEvent} {env : Env} {sourceId : TaskId}
    {out : RetryTaskOutcome} (h : Reflects db log) (hok : retryTask env sourceId db = .ok (out, db')) :
    (∃ t, out = .existing t ∧ db' = db ∧ history.replay log t.id = some t) ∨
    (∃ t eventId now, out = .created t eventId ∧ history.replay log t.id = none ∧
      t.status = .queued ∧ Reflects db' (log ++ [TaskEvent.new eventId t.id (.taskQueued t) now])) := by
  obtain ⟨source, -, -, -, ⟨t, rfl, rfl, hmem, -⟩ | ⟨t, eventId, now, db₁, rfl, hins, happ⟩⟩ :=
    retryTask_ok hok
  · exact .inl ⟨t, rfl, rfl, h.replay_of_mem hmem⟩
  · obtain ⟨hnone, htask, hrepr⟩ := insertQueued_reflects h rfl hins happ
    have hid : t.id = env.taskId := congrArg TaskRow.id htask
    refine .inr ⟨t, eventId, now, rfl, ?_, congrArg TaskRow.status htask, ?_⟩
    · rw [hid]; exact hnone
    · rw [hid]; exact hrepr

/-- Rewriting one row and appending its lifecycle event. The caller knows
which row this is and owes the admissibility of the event. -/
theorem updateLifecycle_reflects {db db' : Db} {log : List TaskEvent} {env : Env} {id : TaskId}
    {kind : TaskEventKind} {now : UtcTimestamp} {task : Task} {eventId : EventId}
    {p : TaskRow → Bool} {g : TaskRow → TaskRow} (h : Reflects db log)
    (hp : ∀ r, p r = true → r.id = id) (hg : ∀ r, (g r).id = r.id)
    (hone : (db.tasks.filter p).length ≠ 0)
    (happ : appendLifecycleEvent env id kind now
      { db with tasks := db.tasks.map fun r => if p r then g r else r } =
        .ok ((task, eventId), db')) :
    ∃ t payload, history.replay log id = some t ∧ p (TaskRow.ofTask t) = true ∧
      TaskRow.ofTask task = { g (TaskRow.ofTask t) with lastEventId := eventId.get } ∧
      lifecyclePayload kind task = .ok payload ∧ task.WellFormed ∧
      (Admissible (some t) (TaskEvent.new eventId id payload now) →
        Reflects db' (log ++ [TaskEvent.new eventId id payload now])) := by
  obtain ⟨payload, hpay, hlt, hdb', hfind, hw⟩ := appendLifecycleEvent_ok happ h.events_le
  obtain ⟨row, hrow⟩ := List.exists_mem_of_length_pos (Nat.pos_of_ne_zero hone)
  obtain ⟨hmem, hprow⟩ := List.mem_filter.1 hrow
  have hrid : row.id = id := hp row hprow
  obtain ⟨t, ht, rfl⟩ := (h.rows row).1 hmem
  rw [hrid] at ht
  -- both updates as one function of a row
  let f : TaskRow → TaskRow := fun r =>
    let r' := if p r then g r else r
    if r'.id = id then { r' with lastEventId := eventId.get } else r'
  have hfid : ∀ r, (f r).id = r.id := by
    intro r
    simp only [f]
    split <;> split <;> simp [hg]
  have hft : f (TaskRow.ofTask t) = { g (TaskRow.ofTask t) with lastEventId := eventId.get } := by
    simp only [f, hprow, if_true, hg, hrid]
  have hother : ∀ r ∈ db.tasks, r.id ≠ id → f r = r := by
    intro r _ hne
    have hpr : p r = false := by
      cases hpr : p r with
      | false => rfl
      | true => exact absurd (hp r hpr) hne
    simp [f, hpr, hne]
  have htasks : db'.tasks = db.tasks.map f := by
    rw [hdb']
    simp only [List.map_map]
    rfl
  have htask : TaskRow.ofTask task = f (TaskRow.ofTask t) := by
    rw [htasks, List.find?_map] at hfind
    have hcomp : ((fun r : TaskRow => decide (r.id = id)) ∘ f) = fun r => decide (r.id = id) := by
      funext r; simp [hfid]
    rw [hcomp, h.find, ht] at hfind
    simpa using hfind.symm
  obtain ⟨-, htask?, -⟩ := lifecyclePayload_ok hpay
  refine ⟨t, payload, ht, hprow, htask.trans hft, hpay, hw, fun ha => ?_⟩
  exact h.update ht hlt ha (applyEvent_task htask? _) hfid htask.symm hother htasks
    (by rw [hdb']) (by rw [hdb']; rfl)

/-- The row after a transition. -/
def transitionTask (t : Task) (transition : TaskTransition) (now : UtcTimestamp)
    (eventId : EventId) : Task :=
  match transition with
  | .running => startRow t now eventId
  | .completed | .failed _ | .cancelled | .interrupted _ =>
    finishRow t transition.next transition.failure now eventId

theorem transitionRow_ofTask (t : Task) (transition : TaskTransition) (now : UtcTimestamp)
    (eventId : EventId) :
    { transitionRow transition now (TaskRow.ofTask t) with lastEventId := eventId.get } =
      TaskRow.ofTask (transitionTask t transition now eventId) := by
  cases transition <;> rfl

@[simp] theorem transitionTask_status (t : Task) (transition : TaskTransition) (now : UtcTimestamp)
    (eventId : EventId) : (transitionTask t transition now eventId).status = transition.next := by
  cases transition <;> rfl

/-- A transition the domain allows follows the row it starts from. -/
theorem follows_transition {t : Task} {transition : TaskTransition} {now : UtcTimestamp}
    {eventId : EventId} {id : TaskId} {payload : TaskEventPayload}
    (hc : t.status.canTransitionTo transition.next = true)
    (hp : lifecyclePayload (lifecycleKind transition.next)
      (transitionTask t transition now eventId) = .ok payload) :
    Follows (some t) (TaskEvent.new eventId id payload now) := by
  cases transition with
  | running =>
    cases hp
    exact .started (TaskStatus.canTransitionTo_running hc) rfl
  | completed => cases hp; exact .finished hc rfl rfl
  | failed failure => cases hp; exact .finished hc rfl rfl
  | cancelled => cases hp; exact .finished hc rfl rfl
  | interrupted failure => cases hp; exact .finished hc rfl rfl

/-- **`transition_with_event`.** -/
theorem transitionWithEvent_reflects {db db' : Db} {log : List TaskEvent} {env : Env} {id : TaskId}
    {expected : TaskStatus} {transition : TaskTransition} {out : TransitionOutcome}
    (h : Reflects db log)
    (hok : transitionWithEvent env id expected transition db = .ok (out, db')) :
    (∃ t, out = .conflict t ∧ db' = db ∧ history.replay log id = some t ∧ t.status ≠ expected) ∨
    (∃ t eventId now payload, out = .applied (transitionTask t transition now eventId) eventId ∧
      history.replay log id = some t ∧ t.status = expected ∧
      lifecyclePayload (lifecycleKind transition.next) (transitionTask t transition now eventId) =
        .ok payload ∧
      Reflects db' (log ++ [TaskEvent.new eventId id payload now])) := by
  simp only [transitionWithEvent] at hok
  split at hok
  · cases hok
  · rename_i hc
    have hc : expected.canTransitionTo transition.next = true := by simpa using hc
    simp only [tx_bind_ok] at hok
    obtain ⟨now, db₁, h₁, n, db₂, h₂, h₃⟩ := hok
    obtain ⟨-, rfl⟩ := tx_lift_ok.1 h₁
    obtain ⟨hn, rfl⟩ := updateTasks_ok.1 h₂
    split at h₃
    · rename_i hzero
      -- no row had the expected status: nothing is written
      have hnone : ∀ r ∈ db₁.tasks, ¬ (r.id = id ∧ r.status = expected) := by
        have := List.eq_nil_of_length_eq_zero (hn.symm.trans hzero)
        simpa [List.filter_eq_nil_iff] using this
      have hsame : (db₁.tasks.map fun r => if (r.id = id && r.status = expected : Bool) then
          transitionRow transition now r else r) = db₁.tasks := by
        rw [List.map_congr_left (g := fun r => r), List.map_id']
        intro r hr
        have := hnone r hr
        simp_all
      simp only [tx_bind_ok] at h₃
      obtain ⟨found, db₃, h₃, current, db₄, h₄, h₅⟩ := h₃
      simp only [tx_pure, Except.ok.injEq, Prod.mk.injEq] at h₅
      obtain ⟨rfl, rfl⟩ := h₅
      obtain ⟨rfl, rfl⟩ := okOr_ok.1 h₄
      obtain ⟨rfl, hf, -⟩ := loadTaskWhere_some h₃
      simp only [hsame] at hf
      have ht := h.find_some hf
      refine .inl ⟨current, rfl, by rw [hsame], ht, fun hst => ?_⟩
      exact hnone _ (h.mem_of_replay ht) ⟨h.replay_id ht, hst⟩
    · rename_i hpos
      simp only [tx_bind_ok] at h₃
      obtain ⟨u, db₃, h₃, ⟨task, eventId⟩, db₄, h₄, h₅⟩ := h₃
      simp only [tx_pure, Except.ok.injEq, Prod.mk.injEq] at h₅
      obtain ⟨rfl, rfl⟩ := h₅
      obtain ⟨-, rfl⟩ := ensureExactlyOne_ok.1 h₃
      obtain ⟨t, payload, ht, hpt, htask, hp, hw, hrepr⟩ := updateLifecycle_reflects
        (p := fun r => r.id = id && r.status = expected) (g := transitionRow transition now) h
        (by simp +contextual) (by intro r; cases transition <;> rfl) (hn ▸ hpos) h₄
      rw [transitionRow_ofTask] at htask
      cases ofTask_inj htask
      simp only [Bool.and_eq_true, decide_eq_true_eq] at hpt
      have hpt : t.id = id ∧ t.status = expected := hpt
      refine .inr ⟨t, eventId, now, payload, rfl, ht, hpt.2, hp, hrepr ⟨?_, ?_⟩⟩
      · refine eventOk_lifecycle hp hw ?_ ?_ (by rw [transitionTask_status])
        · cases transition <;> exact hpt.1
        · cases transition <;> rfl
      · exact follows_transition (by rw [hpt.2]; exact hc) hp

/-- **`append_running_event`.** -/
theorem appendRunningEvent_reflects {db db' : Db} {log : List TaskEvent} {env : Env} {id : TaskId}
    {payload : TaskEventPayload} {out : AppendEventOutcome} (h : Reflects db log)
    (hok : appendRunningEvent env id payload db = .ok (out, db')) :
    payload.kind.isPanel = true ∧
    ((∃ t, out = .notRunning t ∧ db' = db ∧ history.replay log id = some t ∧
        t.status ≠ .running) ∨
      (∃ t eventId now, out = .applied eventId ∧ history.replay log id = some t ∧
        t.status = .running ∧ Reflects db' (log ++ [TaskEvent.new eventId id payload now]))) := by
  unfold appendRunningEvent at hok
  split at hok
  · cases hok
  · rename_i hpan
    have hpan : payload.kind.isPanel = true := by simpa using hpan
    refine ⟨hpan, ?_⟩
    simp only [tx_bind_ok] at hok
    obtain ⟨found, db₁, h₁, t, db₂, h₂, h₃⟩ := hok
    obtain ⟨rfl, rfl⟩ := okOr_ok.1 h₂
    obtain ⟨rfl, hf, -⟩ := loadTaskWhere_some h₁
    have ht := h.find_some hf
    split at h₃
    · rename_i hst
      simp only [tx_pure, Except.ok.injEq, Prod.mk.injEq] at h₃
      obtain ⟨rfl, rfl⟩ := h₃
      exact .inl ⟨t, rfl, rfl, ht, hst⟩
    · rename_i hst
      have hst : t.status = .running := by simpa using hst
      simp only [tx_bind_ok] at h₃
      obtain ⟨now, db₃, h₃, eventId, db₄, h₄, n, db₅, h₅, u, db₆, h₆, h₇⟩ := h₃
      simp only [tx_pure, Except.ok.injEq, Prod.mk.injEq] at h₇
      obtain ⟨rfl, rfl⟩ := h₇
      obtain ⟨-, rfl⟩ := tx_lift_ok.1 h₃
      obtain ⟨hlt, rfl⟩ := insertEvent_ok h₄
      obtain ⟨-, rfl⟩ := updateTasks_ok.1 h₅
      obtain ⟨-, rfl⟩ := ensureExactlyOne_ok.1 h₆
      refine .inr ⟨t, eventId, now, rfl, ht, hst, ?_⟩
      have ha : Admissible (some t) (TaskEvent.new eventId id payload now) :=
        ⟨eventOk_panel hpan id eventId now, .panel hst hpan⟩
      have happly : applyEvent (some t) (TaskEvent.new eventId id payload now) =
          some { t with lastEventId := eventId } :=
        applyEvent_panel (e := TaskEvent.new eventId id payload now) hpan t
      refine h.update ht hlt ha happly ?_ ?_ ?_ rfl rfl rfl
      · intro r; split <;> rfl
      · simp [hst, h.replay_id ht, TaskRow.ofTask]
      · intro r _ hne
        have : r.id ≠ id := hne
        simp [this]

/-! ## Recovery -/

theorem canTransitionTo_interrupted {s : TaskStatus} (h : isIncomplete s = true) :
    s.canTransitionTo .interrupted = true := by
  cases s <;> simp_all [isIncomplete, TaskStatus.canTransitionTo]

/-- An event of one task leaves the rows of the others alone. -/
theorem replay_snoc_ne {log : List TaskEvent} {e : TaskEvent} {id : TaskId} (h : e.taskId ≠ id) :
    history.replay (log ++ [e]) id = history.replay log id := by
  rw [EventModel.replay_snoc]
  exact if_neg h

/-- The event that interrupts a task in a recovery. -/
structure Interrupts (log : List TaskEvent) (now : UtcTimestamp) (failure : TaskFailure)
    (e : TaskEvent) (t : Task) : Prop where
  row : history.replay log e.taskId = some t
  incomplete : isIncomplete t.status = true
  createdAt : e.createdAt = now
  payload : e.payload = .taskInterrupted (finishRow t .interrupted (some failure) now e.id)

/-- The loop, for any list of ids. -/
theorem recoverTasks_reflects {env : Env} {now : UtcTimestamp} {failure : TaskFailure}
    {ids : List TaskId} : ∀ {db db' : Db} {log : List TaskEvent} {eventIds : List EventId},
    Reflects db log → recoverTasks env now failure ids db = .ok (eventIds, db') →
    ∃ new, Reflects db' (log ++ new) ∧ new.map (·.id) = eventIds ∧ new.map (·.taskId) = ids ∧
      ∀ e ∈ new, ∃ t, Interrupts log now failure e t := by
  induction ids with
  | nil =>
    intro db db' log eventIds h hok
    simp only [recoverTasks, tx_pure, Except.ok.injEq, Prod.mk.injEq] at hok
    obtain ⟨rfl, rfl⟩ := hok
    exact ⟨[], by simpa using h, rfl, rfl, by simp⟩
  | cons id ids ih =>
    intro db db' log eventIds h hok
    simp only [recoverTasks, tx_bind_ok] at hok
    obtain ⟨n, db₁, h₁, u, db₂, h₂, ⟨task, eventId⟩, db₃, h₃, rest, db₄, h₄, h₅⟩ := hok
    simp only [tx_pure, Except.ok.injEq, Prod.mk.injEq] at h₅
    obtain ⟨rfl, rfl⟩ := h₅
    obtain ⟨hn, rfl⟩ := updateTasks_ok.1 h₁
    obtain ⟨hone, rfl⟩ := ensureExactlyOne_ok.1 h₂
    obtain ⟨t, payload, ht, hpt, htask, hp, hw, hrepr⟩ := updateLifecycle_reflects
      (p := fun r => r.id = id && isIncomplete r.status) (g := recoveredRow now failure) h
      (by simp +contextual) (fun _ => rfl) (by omega) h₃
    have htask' : task = finishRow t .interrupted (some failure) now eventId := ofTask_inj htask
    simp only [Bool.and_eq_true, decide_eq_true_eq] at hpt
    cases hp
    have hrepr' := hrepr ⟨eventOk_lifecycle rfl hw (by rw [htask']; exact hpt.1) (by rw [htask']; rfl)
      (by rw [htask', finishRow, lifecycleKind]),
      .finished (canTransitionTo_interrupted hpt.2) rfl (by rw [htask']; rfl)⟩
    obtain ⟨new, hnew, hids, htasks, hall⟩ := ih hrepr' h₄
    refine ⟨_ :: new, by simpa using hnew, by simp [hids, TaskEvent.new],
      by simp [htasks, TaskEvent.new], ?_⟩
    intro e he
    rcases List.mem_cons.1 he with rfl | he
    · exact ⟨t, ht, hpt.2, rfl, by rw [htask']; rfl⟩
    · -- the first task is no longer incomplete, so this one is another
      obtain ⟨t', hrow, hinc, hnow, hpayload⟩ := hall e he
      by_cases hid : id = e.taskId
      · subst hid
        have hself : history.replay (log ++ [TaskEvent.new eventId e.taskId
            (.taskInterrupted task) now]) e.taskId = some task :=
          EventModel.replay_snoc_self (m := history) log (TaskEvent.new eventId e.taskId _ now)
        cases hself.symm.trans hrow
        rw [htask'] at hinc
        cases hinc
      · rw [replay_snoc_ne (show (TaskEvent.new eventId id (.taskInterrupted task) now).taskId ≠
          e.taskId from hid)] at hrow
        exact ⟨t', hrow, hinc, hnow, hpayload⟩

theorem mem_incompleteTaskIds {db db' : Db} {ids : List TaskId}
    (h : incompleteTaskIds db = .ok (ids, db')) : db' = db ∧
      ∀ id, id ∈ ids ↔ ∃ row ∈ db.tasks, isIncomplete row.status = true ∧ row.id = id := by
  simp only [incompleteTaskIds, Except.ok.injEq, Prod.mk.injEq] at h
  obtain ⟨rfl, rfl⟩ := h
  refine ⟨rfl, fun id => ?_⟩
  simp only [List.mem_map, List.mem_insertionSort, List.mem_filter, and_assoc]

/-- **`recover_incomplete`.** Every task that was queued or running is
interrupted with the given failure, and no other row changes. -/
theorem recoverIncomplete_reflects {db db' : Db} {log : List TaskEvent} {env : Env}
    {now : UtcTimestamp} {failure : TaskFailure} {out : RecoveryOutcome} (h : Reflects db log)
    (hok : recoverIncomplete env now failure db = .ok (out, db')) :
    ∃ new, Reflects db' (log ++ new) ∧
      (∀ e ∈ new, ∃ t, e.payload = .taskInterrupted t ∧ t.status = .interrupted ∧
        t.failure = some failure ∧ history.replay (log ++ new) e.taskId = some t) ∧
      (∀ e ∈ new, ∃ t, Interrupts log now failure e t) ∧
      (∀ id t, history.replay (log ++ new) id = some t → isIncomplete t.status = false) ∧
      incompleteTaskIds db = .ok (new.map (·.taskId), db) ∧
      out = { interruptedCount := new.length, firstEventId := (new.map (·.id)).head?,
              lastEventId := (new.map (·.id)).getLast?, highWatermark := latest (log ++ new) } := by
  simp only [recoverIncomplete, tx_bind_ok] at hok
  obtain ⟨ids, db₁, h₁, eventIds, db₂, h₂, hw, db₃, h₃, h₄⟩ := hok
  simp only [tx_pure, Except.ok.injEq, Prod.mk.injEq] at h₄
  obtain ⟨rfl, rfl⟩ := h₄
  obtain ⟨rfl, hids⟩ := mem_incompleteTaskIds h₁
  obtain ⟨new, hnew, hevents, htasks, hall⟩ := recoverTasks_reflects h h₂
  simp only [latestEventCursor, Except.ok.injEq, Prod.mk.injEq] at h₃
  obtain ⟨rfl, rfl⟩ := h₃
  -- the row of a recovered task is final from its event on
  have hfinal : ∀ e ∈ new, ∃ t, e.payload = .taskInterrupted t ∧ t.status = .interrupted ∧
      t.failure = some failure ∧ history.replay (log ++ new) e.taskId = some t := by
    intro e he
    obtain ⟨t, -, -, -, hp⟩ := hall e he
    refine ⟨_, hp, rfl, rfl, ?_⟩
    obtain ⟨a, b, rfl⟩ := List.append_of_mem he
    have hsplit : log ++ (a ++ e :: b) = log ++ a ++ [e] ++ b := by simp
    rw [hsplit]
    refine (valid_terminal_stable (hsplit ▸ hnew.valid) ?_ rfl).2
    exact (EventModel.replay_snoc_self _ _).trans (applyEvent_task (by rw [hp]; rfl) _)
  refine ⟨new, hnew, hfinal, hall, ?_, by rw [htasks]; exact h₁, ?_⟩
  · intro id t ht
    by_cases hex : ∃ e ∈ new, e.taskId = id
    · obtain ⟨e, he, rfl⟩ := hex
      obtain ⟨t', -, hst, -, hr⟩ := hfinal e he
      rw [hr] at ht; cases ht
      rw [hst]; rfl
    · have hstream : history.streamOf new id = [] := by
        exact List.filter_eq_nil_iff.2 fun e he heq => hex ⟨e, he, of_decide_eq_true heq⟩
      rw [EventModel.replay_append, hstream] at ht
      cases hinc : isIncomplete t.status with
      | false => rfl
      | true =>
        have hmem : id ∈ ids := (hids id).2 ⟨_, h.mem_of_replay ht, hinc, h.replay_id ht⟩
        rw [← htasks] at hmem
        obtain ⟨e, he, heq⟩ := List.mem_map.1 hmem
        exact absurd ⟨e, he, heq⟩ hex
  · rw [← hevents, List.length_map, hnew.events, List.map_map]
    rfl

/-- With nothing to recover the database is left alone. -/
theorem recoverIncomplete_idle {db db' : Db} {env : Env} {now : UtcTimestamp}
    {failure : TaskFailure} {out : RecoveryOutcome}
    (h : ∀ row ∈ db.tasks, isIncomplete row.status = false)
    (hok : recoverIncomplete env now failure db = .ok (out, db')) : db' = db := by
  simp only [recoverIncomplete, tx_bind_ok] at hok
  obtain ⟨ids, db₁, h₁, eventIds, db₂, h₂, hw, db₃, h₃, h₄⟩ := hok
  simp only [tx_pure, Except.ok.injEq, Prod.mk.injEq] at h₄
  obtain ⟨-, rfl⟩ := h₄
  obtain ⟨rfl, hids⟩ := mem_incompleteTaskIds h₁
  simp only [latestEventCursor, Except.ok.injEq, Prod.mk.injEq] at h₃
  obtain ⟨-, rfl⟩ := h₃
  have hnil : ids = [] := by
    refine List.eq_nil_iff_forall_not_mem.2 fun id hid => ?_
    obtain ⟨row, hrow, hinc, -⟩ := (hids id).1 hid
    rw [h row hrow] at hinc
    cases hinc
  rw [hnil] at h₂
  simp only [recoverTasks, tx_pure, Except.ok.injEq, Prod.mk.injEq] at h₂
  exact h₂.2.symm

/-- What a recovery leaves of the database before it. -/
structure Finalized (before after : Db) : Prop where
  done : ∀ row ∈ after.tasks, isIncomplete row.status = false
  kept : ∀ row ∈ before.tasks, isIncomplete row.status = false → row ∈ after.tasks ∧
    after.events.filter (fun e => e.taskId = row.id) =
      before.events.filter fun e => e.taskId = row.id

theorem recoverIncomplete_finalized {db db' : Db} {log : List TaskEvent} {env : Env}
    {now : UtcTimestamp} {failure : TaskFailure} {out : RecoveryOutcome} (h : Reflects db log)
    (hok : recoverIncomplete env now failure db = .ok (out, db')) : Finalized db db' := by
  obtain ⟨new, hr, -, hinc, hdone, -⟩ := recoverIncomplete_reflects h hok
  refine ⟨fun row hrow => ?_, fun row hrow hterm => ?_⟩
  · obtain ⟨t, ht, heq⟩ := (hr.rows row).1 hrow
    rw [heq]
    exact hdone _ t ht
  · obtain ⟨t, ht, heq⟩ := (h.rows row).1 hrow
    -- a new event is about a task that was incomplete
    have hother : ∀ e ∈ new, e.taskId ≠ row.id := by
      intro e he hid
      obtain ⟨u, hu, hui, -⟩ := hinc e he
      rw [hid, ht] at hu
      cases hu
      rw [heq, ofTask_status, hui] at hterm
      cases hterm
    constructor
    · refine (hr.rows row).2 ⟨t, ?_, heq⟩
      have hstream : history.streamOf new row.id = [] :=
        List.filter_eq_nil_iff.2 fun e he hid => hother e he (of_decide_eq_true hid)
      rw [EventModel.replay_append, hstream, ← ht]
      rfl
    · have hnone : (new.map EventRow.ofEvent).filter (fun e => e.taskId = row.id) = [] := by
        refine List.filter_eq_nil_iff.2 fun r hr => ?_
        obtain ⟨e, he, rfl⟩ := List.mem_map.1 hr
        exact fun hid => hother e he (of_decide_eq_true hid)
      rw [hr.events, h.events, List.map_append, List.filter_append, hnone, List.append_nil]

/-! ## Calls -/

/-- What one call does to a database that reflects `log`: it appends `new`, and the
row of every lifecycle event of `new` is the one that event carries. -/
structure Grows (db' : Db) (log new : List TaskEvent) : Prop where
  reflects : Reflects db' (log ++ new)
  rows : ∀ e ∈ new, ∀ t, e.payload.task? = some t → history.replay (log ++ new) e.taskId = some t

theorem grows_nil {db : Db} {log : List TaskEvent} (h : Reflects db log) : Grows db log [] :=
  ⟨by rw [List.append_nil]; exact h, by simp⟩

theorem grows_one {db : Db} {log : List TaskEvent} {e : TaskEvent} (h : Reflects db (log ++ [e])) :
    Grows db log [e] := by
  refine ⟨h, fun x hx t ht => ?_⟩
  rw [List.mem_singleton.1 hx] at ht ⊢
  exact (EventModel.replay_snoc_self _ _).trans (applyEvent_task ht _)

/-- One operation. -/
theorem operation_reflects {db db' : Db} {log : List TaskEvent} {env : Env} {op : Operation}
    {reply : Reply} (h : Reflects db log) (hok : op.tx env db = .ok (reply, db')) :
    ∃ new, Grows db' log new := by
  cases op with
  | createTask input =>
    obtain ⟨out, hout, -⟩ := tx_map_ok.1 hok
    rcases createTask_reflects h hout with ⟨t, -, rfl, -⟩ | ⟨t, eventId, now, -, -, -, hr⟩
    · exact ⟨[], grows_nil h⟩
    · exact ⟨_, grows_one hr⟩
  | retryTask sourceId =>
    obtain ⟨out, hout, -⟩ := tx_map_ok.1 hok
    rcases retryTask_reflects h hout with ⟨t, -, rfl, -⟩ | ⟨t, eventId, now, -, -, -, hr⟩
    · exact ⟨[], grows_nil h⟩
    · exact ⟨_, grows_one hr⟩
  | transitionWithEvent taskId expected transition =>
    obtain ⟨out, hout, -⟩ := tx_map_ok.1 hok
    rcases transitionWithEvent_reflects h hout with ⟨t, -, rfl, -⟩ |
      ⟨t, eventId, now, payload, -, -, -, -, hr⟩
    · exact ⟨[], grows_nil h⟩
    · exact ⟨_, grows_one hr⟩
  | appendRunningEvent taskId payload =>
    obtain ⟨out, hout, -⟩ := tx_map_ok.1 hok
    rcases (appendRunningEvent_reflects h hout).2 with ⟨t, -, rfl, -⟩ | ⟨t, eventId, now, -, -, -, hr⟩
    · exact ⟨[], grows_nil h⟩
    · exact ⟨_, grows_one hr⟩
  | recoverIncomplete now failure =>
    obtain ⟨out, hout, -⟩ := tx_map_ok.1 hok
    obtain ⟨new, hr, hfinal, -⟩ := recoverIncomplete_reflects h hout
    refine ⟨new, hr, fun e he t ht => ?_⟩
    obtain ⟨t', hp, -, -, hrow⟩ := hfinal e he
    rw [hp] at ht
    cases ht
    exact hrow

theorem Call.run_reflects {db : Db} {log : List TaskEvent} (h : Reflects db log) (call : Call) :
    ∃ new, Grows (call.run db).2 log new := by
  unfold Call.run
  split
  · exact ⟨[], grows_nil h⟩
  · split
    · rename_i hok
      exact operation_reflects h hok
    · exact ⟨[], grows_nil h⟩

theorem exec_reflects {db : Db} {log : List TaskEvent} (h : Reflects db log) (calls : List Call) :
    ∃ new, Reflects (exec db calls) (log ++ new) := by
  induction calls using List.reverseRecOn with
  | nil => exact ⟨[], by simpa using h⟩
  | append_singleton calls call ih =>
    obtain ⟨new, hr⟩ := ih
    obtain ⟨more, hg⟩ := Call.run_reflects hr call
    exact ⟨new ++ more, by rw [exec_snoc, ← List.append_assoc]; exact hg.reflects⟩

end CodingAgent.L2.Store
