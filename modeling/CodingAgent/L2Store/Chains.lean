import CodingAgent.L2Store.Runs
import Mathlib.Logic.Relation

/-!
# Idempotent creation and retry chains

A client names the task it creates by a request id, so that it can send the
request twice. `retry_task` makes at most one child of a task, so tasks form
linear chains.

* `Chained`: what holds of the rows of every reachable store; `reachable_chained`.
* `Call.run_rows`: a call keeps the identity of all rows, and adds at most one.
* `creation_idempotent`: the contract over two calls with any run between them;
  `creation_blank_prompt`: a bad prompt is refused before the request is looked up.
-/
namespace CodingAgent.L2.Store
open CodingAgent.L1.Domain

/-- `child` is a retry of `parent`, which had ended. -/
structure RetriedFrom (parent child : TaskRow) : Prop where
  link : child.retryOf = some parent.id
  attempt : child.attempt = parent.attempt + 1
  repositoryId : child.repositoryId = parent.repositoryId
  prompt : child.prompt = parent.prompt
  terminal : parent.status.isRetryable = true

structure Chained (db : Db) : Prop where
  ids : (db.tasks.map (·.id)).Nodup
  requests : ∀ a ∈ db.tasks, ∀ b ∈ db.tasks, a.clientRequestId = b.clientRequestId → a = b
  roots : ∀ row ∈ db.tasks, row.retryOf = none → row.attempt = 1
  parents : ∀ row ∈ db.tasks, row.retryOf.isSome = true → ∃ parent ∈ db.tasks, RetriedFrom parent row
  oneChild : ∀ a ∈ db.tasks, ∀ b ∈ db.tasks, a.retryOf.isSome = true → a.retryOf = b.retryOf → a = b

/-- `child` names `parent` in its `retry_of` column. -/
def RetryOf (db : Db) (child parent : TaskId) : Prop :=
  ∃ row ∈ db.tasks, row.id = child ∧ row.retryOf = some parent

/-! ## Rows keep their identity -/

/-- Two states of one row. -/
def KeepsRow (row row' : TaskRow) : Prop :=
  ∃ t t', row = TaskRow.ofTask t ∧ row' = TaskRow.ofTask t' ∧ Keeps t t'

/-- A row that an insert adds. -/
structure NewRow (db : Db) (row : TaskRow) : Prop where
  insertable : Insertable db row
  root : row.retryOf = none → row.attempt = 1
  parent : row.retryOf.isSome = true → ∃ parent ∈ db.tasks, RetriedFrom parent row

theorem KeepsRow.retriedFrom {parent parent' child child' : TaskRow} (hp : KeepsRow parent parent')
    (hc : KeepsRow child child') (h : RetriedFrom parent child) : RetriedFrom parent' child' := by
  obtain ⟨p, p', rfl, rfl, hp⟩ := hp
  obtain ⟨c, c', rfl, rfl, hc⟩ := hc
  cases hp.terminal h.terminal
  exact ⟨hc.retryOf.trans h.link, (congrArg UInt32.toNat hc.attempt).trans h.attempt,
    hc.repositoryId.trans h.repositoryId, hc.prompt.trans h.prompt, h.terminal⟩

/-- Every row is still there. -/
theorem Reflects.kept {db db' : Db} {log new : List TaskEvent} (h : Reflects db log)
    (h' : Reflects db' (log ++ new)) : ∀ row ∈ db.tasks, ∃ row' ∈ db'.tasks, KeepsRow row row' := by
  intro row hrow
  obtain ⟨t, ht, rfl⟩ := (h.rows row).1 hrow
  obtain ⟨t', ht', hk⟩ := replay_keeps h'.valid ht
  exact ⟨TaskRow.ofTask t', h'.mem_of_replay ht', t, t', rfl, rfl, hk⟩

/-- No row is new when every event is about a task that had a row. -/
theorem Reflects.old {db db' : Db} {log new : List TaskEvent} (h : Reflects db log)
    (h' : Reflects db' (log ++ new)) (hnew : ∀ e ∈ new, history.replay log e.taskId ≠ none) :
    ∀ row' ∈ db'.tasks, ∃ row ∈ db.tasks, KeepsRow row row' := by
  intro row' hrow'
  obtain ⟨t', ht', rfl⟩ := (h'.rows row').1 hrow'
  obtain ⟨t, ht, hk⟩ := replay_old h'.valid hnew ht'
  exact ⟨TaskRow.ofTask t, h.mem_of_replay ht, t, t', rfl, rfl, hk⟩

/-- The rows after a first event of a task that had none. -/
theorem Reflects.inserted {db db' : Db} {log : List TaskEvent} {e : TaskEvent} {t : Task}
    (h : Reflects db log) (h' : Reflects db' (log ++ [e])) (hnone : history.replay log e.taskId = none)
    (ht : history.replay (log ++ [e]) e.taskId = some t) (row : TaskRow) :
    row ∈ db'.tasks ↔ row ∈ db.tasks ∨ row = TaskRow.ofTask t := by
  rw [h'.rows, h.rows]
  by_cases hid : e.taskId = row.id
  · rw [← hid, ht, hnone]
    constructor
    · rintro ⟨u, hu, rfl⟩
      cases hu
      exact .inr rfl
    · rintro (⟨u, hu, -⟩ | rfl)
      · cases hu
      · exact ⟨t, rfl, rfl⟩
  · rw [replay_snoc_ne hid]
    refine ⟨.inl, ?_⟩
    rintro (hold | rfl)
    · exact hold
    · exact absurd (h'.replay_id ht).symm hid

theorem Reflects.same {db : Db} {log : List TaskEvent} (h : Reflects db log) :
    ∀ row ∈ db.tasks, ∃ old ∈ db.tasks, KeepsRow old row := by
  intro row hrow
  obtain ⟨t, -, rfl⟩ := (h.rows row).1 hrow
  exact ⟨_, hrow, t, t, rfl, rfl, .refl t⟩

/-- What the insert of a queued row adds. -/
theorem insertQueued_newRow {db db₁ db' : Db} {log : List TaskEvent} {env : Env} {row : TaskRow}
    {now : UtcTimestamp} {task : Task} {eventId : EventId} {u : Unit} (h : Reflects db log)
    (hq : row.status = .queued) (hins : insertTask row db = .ok (u, db₁))
    (happ : appendLifecycleEvent env row.id .taskQueued now db₁ = .ok ((task, eventId), db'))
    (hroot : row.retryOf = none → row.attempt = 1)
    (hparent : row.retryOf.isSome = true → ∃ parent ∈ db.tasks, RetriedFrom parent row) :
    ∃ new, NewRow db new ∧ ∀ row', row' ∈ db'.tasks ↔ row' ∈ db.tasks ∨ row' = new := by
  obtain ⟨hnone, htask, h'⟩ := insertQueued_reflects h hq hins happ
  obtain ⟨hinsertable, -⟩ := insertTask_ok hins
  refine ⟨TaskRow.ofTask task, ?_, h.inserted h' hnone ?_⟩
  · rw [htask]
    refine ⟨⟨hinsertable.id, hinsertable.clientRequestId, hinsertable.retryOf,
      hinsertable.repository⟩, hroot, fun hsome => ?_⟩
    obtain ⟨parent, hmem, hfrom⟩ := hparent hsome
    exact ⟨parent, hmem, hfrom.link, hfrom.attempt, hfrom.repositoryId, hfrom.prompt, hfrom.terminal⟩
  · exact EventModel.replay_snoc_self (m := history) log
      (TaskEvent.new eventId row.id (.taskQueued task) now)

/-- **The rows after one call.** Each is an old row, or the one row an insert added. -/
theorem Call.run_rows {db : Db} {log : List TaskEvent} (h : Reflects db log) (call : Call) :
    (∀ row' ∈ (call.run db).2.tasks, ∃ row ∈ db.tasks, KeepsRow row row') ∨
      ∃ row, NewRow db row ∧
        ∀ row', row' ∈ (call.run db).2.tasks ↔ row' ∈ db.tasks ∨ row' = row := by
  obtain ⟨env, op, fault⟩ := call
  simp only [Call.run]
  split
  · exact .inl h.same
  · split
    · rename_i reply db' hok
      cases op with
      | createTask input =>
        obtain ⟨out, hout, -⟩ := tx_map_ok.1 hok
        obtain ⟨new, -, ⟨t, -, hdb', -⟩ | ⟨t, eventId, now, db₁, -, hins, happ⟩⟩ := createTask_ok hout
        · exact .inl (hdb' ▸ h.same)
        · exact .inr (insertQueued_newRow h rfl hins happ (fun _ => rfl) fun hsome => by cases hsome)
      | retryTask sourceId =>
        obtain ⟨out, hout, -⟩ := tx_map_ok.1 hok
        obtain ⟨source, hsource, -, hterm, ⟨t, -, hdb', -⟩ | ⟨t, eventId, now, db₁, -, hins, happ⟩⟩ :=
          retryTask_ok hout
        · exact .inl (hdb' ▸ h.same)
        · refine .inr (insertQueued_newRow h rfl hins happ (fun hnone => by cases hnone) fun _ => ?_)
          exact ⟨_, hsource, rfl, rfl, rfl, rfl, hterm⟩
      | transitionWithEvent id expected transition =>
        obtain ⟨out, hout, -⟩ := tx_map_ok.1 hok
        rcases transitionWithEvent_reflects h hout with ⟨t, -, hdb', -⟩ |
          ⟨t, eventId, now, payload, -, ht, -, -, hr⟩
        · have hdb' : db' = db := hdb'
          exact .inl (hdb' ▸ h.same)
        · refine .inl (h.old hr fun e he => ?_)
          rw [List.mem_singleton.1 he]
          exact fun hnone => by cases ht.symm.trans hnone
      | appendRunningEvent id payload =>
        obtain ⟨out, hout, -⟩ := tx_map_ok.1 hok
        obtain ⟨-, ⟨t, -, hdb', -⟩ | ⟨t, eventId, now, -, ht, -, hr⟩⟩ :=
          appendRunningEvent_reflects h hout
        · exact .inl (hdb' ▸ h.same)
        · refine .inl (h.old hr fun e he => ?_)
          rw [List.mem_singleton.1 he]
          exact fun hnone => by cases ht.symm.trans hnone
      | recoverIncomplete now failure =>
        obtain ⟨out, hout, -⟩ := tx_map_ok.1 hok
        obtain ⟨new, hr, -, hinter, -⟩ := recoverIncomplete_reflects h hout
        refine .inl (h.old hr fun e he hnone => ?_)
        obtain ⟨t, ht, -⟩ := hinter e he
        cases ht.symm.trans hnone
    · exact .inl h.same

/-! ## Chains -/

theorem Chained.row_inj {db : Db} (h : (db.tasks.map (·.id)).Nodup) {a b : TaskRow}
    (ha : a ∈ db.tasks) (hb : b ∈ db.tasks) (hid : a.id = b.id) : a = b :=
  List.inj_on_of_nodup_map h ha hb hid

theorem KeepsRow.eqs {row row' : TaskRow} (h : KeepsRow row row') : row'.id = row.id ∧
    row'.clientRequestId = row.clientRequestId ∧ row'.repositoryId = row.repositoryId ∧
    row'.prompt = row.prompt ∧ row'.attempt = row.attempt ∧ row'.retryOf = row.retryOf := by
  obtain ⟨t, t', rfl, rfl, hk⟩ := h
  exact ⟨hk.id, hk.clientRequestId, hk.repositoryId, hk.prompt, congrArg UInt32.toNat hk.attempt,
    hk.retryOf⟩

/-- Rewritten rows stay chained. -/
theorem Chained.keep {db db' : Db} (h : Chained db) (hids : (db'.tasks.map (·.id)).Nodup)
    (hold : ∀ row' ∈ db'.tasks, ∃ row ∈ db.tasks, KeepsRow row row')
    (hkept : ∀ row ∈ db.tasks, ∃ row' ∈ db'.tasks, KeepsRow row row') : Chained db' where
  ids := hids
  requests a' ha' b' hb' heq := by
    obtain ⟨a, ha, hka⟩ := hold a' ha'
    obtain ⟨b, hb, hkb⟩ := hold b' hb'
    have hab := h.requests a ha b hb (by rw [← hka.eqs.2.1, ← hkb.eqs.2.1, heq])
    exact row_inj hids ha' hb' (by rw [hka.eqs.1, hkb.eqs.1, hab])
  roots row' hrow' hroot := by
    obtain ⟨row, hrow, hk⟩ := hold row' hrow'
    obtain ⟨-, -, -, -, hattempt, hretryOf⟩ := hk.eqs
    rw [hattempt]
    exact h.roots row hrow (hretryOf ▸ hroot)
  parents row' hrow' hsome := by
    obtain ⟨row, hrow, hk⟩ := hold row' hrow'
    obtain ⟨parent, hmem, hfrom⟩ := h.parents row hrow (hk.eqs.2.2.2.2.2 ▸ hsome)
    obtain ⟨parent', hmem', hk'⟩ := hkept parent hmem
    exact ⟨parent', hmem', hk'.retriedFrom hk hfrom⟩
  oneChild a' ha' b' hb' hsome heq := by
    obtain ⟨a, ha, hka⟩ := hold a' ha'
    obtain ⟨b, hb, hkb⟩ := hold b' hb'
    obtain ⟨hida, -, -, -, -, hra⟩ := hka.eqs
    obtain ⟨hidb, -, -, -, -, hrb⟩ := hkb.eqs
    have hab := h.oneChild a ha b hb (hra ▸ hsome) (by rw [← hra, ← hrb, heq])
    exact row_inj hids ha' hb' (by rw [hida, hidb, hab])

/-- A row that could be inserted extends the chains. -/
theorem Chained.insert {db db' : Db} {row : TaskRow} (h : Chained db)
    (hids : (db'.tasks.map (·.id)).Nodup) (hnew : NewRow db row)
    (hrows : ∀ row', row' ∈ db'.tasks ↔ row' ∈ db.tasks ∨ row' = row) : Chained db' where
  ids := hids
  requests a ha b hb heq := by
    rcases (hrows a).1 ha with ha | rfl <;> rcases (hrows b).1 hb with hb | rfl
    · exact h.requests a ha b hb heq
    · exact absurd heq (hnew.insertable.clientRequestId a ha)
    · exact absurd heq.symm (hnew.insertable.clientRequestId b hb)
    · rfl
  roots row' hrow' hroot := by
    rcases (hrows row').1 hrow' with hrow' | rfl
    · exact h.roots row' hrow' hroot
    · exact hnew.root hroot
  parents row' hrow' hsome := by
    have hparent : ∃ parent ∈ db.tasks, RetriedFrom parent row' := by
      rcases (hrows row').1 hrow' with hrow' | rfl
      · exact h.parents row' hrow' hsome
      · exact hnew.parent hsome
    obtain ⟨parent, hmem, hfrom⟩ := hparent
    exact ⟨parent, (hrows parent).2 (.inl hmem), hfrom⟩
  oneChild a ha b hb hsome heq := by
    rcases (hrows a).1 ha with ha | rfl <;> rcases (hrows b).1 hb with hb | rfl
    · exact h.oneChild a ha b hb hsome heq
    · exact absurd heq (hnew.insertable.retryOf a ha (heq ▸ hsome))
    · exact absurd heq.symm (hnew.insertable.retryOf b hb hsome)
    · rfl

theorem chained_step {db : Db} {log : List TaskEvent} (hr : Reflects db log) (h : Chained db)
    (call : StoreCall) : Chained (call.run db) := by
  cases call with
  | task call =>
    obtain ⟨new, hg⟩ := Call.run_reflects hr call
    rcases Call.run_rows hr call with hold | ⟨row, hnew, hrows⟩
    · exact h.keep hg.reflects.nodup hold (hr.kept hg.reflects)
    · exact h.insert hg.reflects.nodup hnew hrows
  | registerRepository env repositoryId input fault =>
    obtain ⟨repositories, heq⟩ := StoreCall.register_frame env repositoryId input fault db
    rw [StoreCall.run, heq]
    exact ⟨h.ids, h.requests, h.roots, h.parents, h.oneChild⟩

theorem store_chained : store.Inductive fun db => (∃ log, Reflects db log) ∧ Chained db :=
  store_reflects.strengthen
    (fun db hi => by
      rw [show db = Db.migrated [] from hi]
      exact ⟨List.nodup_nil, by simp [Db.migrated], by simp [Db.migrated], by simp [Db.migrated],
        by simp [Db.migrated]⟩)
    fun db call db' hr _ h hs => by
      obtain ⟨log, hr⟩ := hr
      rw [store_step.1 hs]
      exact chained_step hr h call

theorem reachable_chained {db : Db} (h : store.Reachable db) : Chained db :=
  (store_chained.reachable db h).2

/-- Attempts count down along a chain. -/
theorem Chained.attempt_lt {db : Db} (h : Chained db) {a b : TaskId}
    (hab : Relation.TransGen (RetryOf db) a b) :
    ∃ ra ∈ db.tasks, ra.id = a ∧ ∃ rb ∈ db.tasks, rb.id = b ∧ rb.attempt < ra.attempt := by
  have hlink : ∀ {a b}, RetryOf db a b →
      ∃ ra ∈ db.tasks, ra.id = a ∧ ∃ rb ∈ db.tasks, rb.id = b ∧ rb.attempt < ra.attempt := by
    rintro a b ⟨ra, hra, rfl, hretry⟩
    obtain ⟨rb, hrb, hfrom⟩ := h.parents ra hra (by rw [hretry]; rfl)
    have hid : rb.id = b := Option.some.inj (hfrom.link.symm.trans hretry)
    exact ⟨ra, hra, rfl, rb, hrb, hid, by rw [hfrom.attempt]; omega⟩
  induction hab with
  | single hab => exact hlink hab
  | tail _ hbc ih =>
    obtain ⟨ra, hra, hida, rb, hrb, hidb, hlt⟩ := ih
    obtain ⟨rb', hrb', hidb', rc, hrc, hidc, hlt'⟩ := hlink hbc
    cases row_inj h.ids hrb hrb' (hidb.trans hidb'.symm)
    exact ⟨ra, hra, hida, rc, hrc, hidc, by omega⟩

/-- **No task is its own ancestor.** -/
theorem Chained.acyclic {db : Db} (h : Chained db) (id : TaskId) :
    ¬ Relation.TransGen (RetryOf db) id id := by
  intro hcycle
  obtain ⟨ra, hra, hida, rb, hrb, hidb, hlt⟩ := h.attempt_lt hcycle
  cases row_inj h.ids hra hrb (hida.trans hidb.symm)
  exact absurd hlt (Nat.lt_irrefl _)

/-! ## Two calls -/

/-- The store after a call and any run behind it. -/
def after (db : Db) (first : Call) (calls : List StoreCall) : Db :=
  StoreCall.execAll (first.run db).2 calls

/-- What the second of two different requests with one id is refused with: a
bad prompt is found before the request is looked up. -/
def refusal (input : NewTask) : StoreError :=
  match NewTask.tryNew input.clientRequestId input.repositoryId input.prompt with
  | .ok _ => .idempotencyConflict
  | .error error => .domain error

/-- Two calls, with any run between them. The second of two creations, or of two
retries, need not be known to succeed: where SQLite does not fail it, it does. -/
structure CreationContract (db : Db) : Prop where
  chained : Chained db
  acyclic : ∀ id, ¬ Relation.TransGen (RetryOf db) id id
  creates : ∀ (first second : Call) (calls : List StoreCall) (input input' : NewTask)
    (out out' : CreateTaskOutcome), first.op = .createTask input → second.op = .createTask input' →
    input'.clientRequestId = input.clientRequestId → (first.run db).1 = .ok (.create out) →
    (second.run (after db first calls)).1 = .ok (.create out') →
    out'.task.id = out.task.id ∧ ∃ new new', (first.run db).2.events = db.events ++ new ∧
      (second.run (after db first calls)).2.events = (after db first calls).events ++ new' ∧
      (new ++ new').length ≤ 1 ∧ ∀ r ∈ new ++ new', r.kind = .taskQueued
  recreates : ∀ (first second : Call) (calls : List StoreCall) (input input' : NewTask)
    (out : CreateTaskOutcome), first.op = .createTask input → second.op = .createTask input' →
    input'.clientRequestId = input.clientRequestId → (first.run db).1 = .ok (.create out) →
    input'.repositoryId = input.repositoryId → trim input'.prompt = trim input.prompt →
    second.fault = false → ∃ task, task.id = out.task.id ∧
      second.run (after db first calls) = (.ok (.create (.existing task)), after db first calls)
  conflicts : ∀ (first second : Call) (calls : List StoreCall) (input input' : NewTask)
    (out : CreateTaskOutcome), first.op = .createTask input → second.op = .createTask input' →
    input'.clientRequestId = input.clientRequestId → (first.run db).1 = .ok (.create out) →
    (input'.repositoryId ≠ input.repositoryId ∨ trim input'.prompt ≠ trim input.prompt) →
    second.fault = false →
    second.run (after db first calls) = (.error (refusal input'), after db first calls)
  retries : ∀ (first second : Call) (calls : List StoreCall) (source : TaskId)
    (out : RetryTaskOutcome), first.op = .retryTask source → second.op = .retryTask source →
    (first.run db).1 = .ok (.retry out) → second.fault = false →
    ∃ child, child.id = out.task.id ∧ child.retryOf = some source ∧
      second.run (after db first calls) = (.ok (.retry (.existing child)), after db first calls)

theorem execAll_reflects {db : Db} {log : List TaskEvent} (h : Reflects db log)
    (calls : List StoreCall) : ∃ new, Reflects (StoreCall.execAll db calls) (log ++ new) := by
  induction calls generalizing db log with
  | nil => exact ⟨[], by rw [List.append_nil]; exact h⟩
  | cons call calls ih =>
    obtain ⟨new, hr⟩ := call.run_reflects h
    obtain ⟨more, hr'⟩ := ih hr
    exact ⟨new ++ more, by rw [← List.append_assoc]; exact hr'⟩

theorem reachable_after {db : Db} (h : store.Reachable db) (first : Call) (calls : List StoreCall) :
    store.Reachable (after db first calls) :=
  (h.step (store_step.2 (rfl : _ = StoreCall.run db (.task first)))).run (run_execAll _ calls)

/-- A row is still there after any run. -/
theorem kept_after {db : Db} (hdb : store.Reachable db) (first : Call) (calls : List StoreCall)
    {row : TaskRow} (hrow : row ∈ (first.run db).2.tasks) :
    ∃ row' ∈ (after db first calls).tasks, KeepsRow row row' := by
  obtain ⟨log, h⟩ := reachable_reflects hdb
  obtain ⟨new, hg⟩ := Call.run_reflects h first
  obtain ⟨more, hr⟩ := execAll_reflects hg.reflects calls
  exact hg.reflects.kept hr row hrow

/-- What a successful creation returns and appends. -/
theorem create_row {db db' : Db} {log : List TaskEvent} {env : Env} {input : NewTask}
    {out : CreateTaskOutcome} (h : Reflects db log) (hok : createTask env input db = .ok (out, db')) :
    TaskRow.ofTask out.task ∈ db'.tasks ∧ out.task.clientRequestId = input.clientRequestId ∧
      out.task.repositoryId = input.repositoryId ∧ out.task.prompt = trim input.prompt ∧
      ∃ new, db'.events = db.events ++ new ∧ new.length ≤ 1 ∧ ∀ r ∈ new, r.kind = .taskQueued := by
  obtain ⟨new, hnew, ⟨t, rfl, rfl, hmem, hc, hr, hp⟩ | ⟨t, eventId, now, db₁, rfl, hins, happ⟩⟩ :=
    createTask_ok hok
  · cases NewTask.tryNew_ok hnew
    exact ⟨hmem, hc, hr, hp, [], by simp, by simp, by simp⟩
  · obtain ⟨-, htask, h'⟩ := insertQueued_reflects h rfl hins happ
    cases NewTask.tryNew_ok hnew
    have hself : history.replay (log ++ [TaskEvent.new eventId env.taskId (.taskQueued t) now])
        env.taskId = some t :=
      EventModel.replay_snoc_self (m := history) log
        (TaskEvent.new eventId env.taskId (.taskQueued t) now)
    refine ⟨h'.mem_of_replay hself, congrArg TaskRow.clientRequestId htask,
      congrArg TaskRow.repositoryId htask, congrArg TaskRow.prompt htask, [_],
      by rw [h'.events, List.map_append, ← h.events]; rfl, by simp, ?_⟩
    intro r hr
    rw [List.mem_singleton.1 hr]
    rfl

/-- A creation with a request id that a row has returns that row. -/
theorem create_again {db db' : Db} {env : Env} {input : NewTask} {out : CreateTaskOutcome}
    {row : TaskRow} (h : Chained db) (hrow : row ∈ db.tasks)
    (hid : row.clientRequestId = input.clientRequestId)
    (hok : createTask env input db = .ok (out, db')) : db' = db ∧ TaskRow.ofTask out.task = row := by
  obtain ⟨new, hnew, ⟨t, rfl, rfl, hmem, hc, -⟩ | ⟨t, eventId, now, db₁, rfl, hins, happ⟩⟩ :=
    createTask_ok hok
  · cases NewTask.tryNew_ok hnew
    exact ⟨rfl, h.requests _ hmem _ hrow (hc.trans hid.symm)⟩
  · cases NewTask.tryNew_ok hnew
    exact absurd hid ((insertTask_ok hins).1.clientRequestId row hrow)

/-- The one row that a query selects is loaded as its task. -/
theorem load_row {db : Db} {log : List TaskEvent} {p : TaskRow → Bool} {row : TaskRow}
    (hr : Reflects db log) (hrow : row ∈ db.tasks) (hp : p row = true)
    (hone : ∀ other ∈ db.tasks, p other = true → other = row) :
    ∃ t, row = TaskRow.ofTask t ∧ loadTaskWhere p db = .ok (some t, db) := by
  obtain ⟨t, ht, rfl⟩ := (hr.rows row).1 hrow
  have hf := valid_rowOf_some hr.valid ht
  have hfind : db.tasks.find? p = some (TaskRow.ofTask t) := by
    cases hfind : db.tasks.find? p with
    | none => exact absurd hp (List.find?_eq_none.1 hfind _ hrow)
    | some found => rw [hone _ (List.mem_of_find?_eq_some hfind) (List.find?_some hfind)]
  exact ⟨t, rfl, loadTaskWhere_ok.2 ⟨rfl, .inr ⟨_, t, rfl, hfind,
    taskFromRecord_ok_iff.2 ⟨rfl, hf.wellFormed⟩⟩⟩⟩

/-- The task of a request id is loaded by it. -/
theorem load_request {db : Db} {log : List TaskEvent} {row : TaskRow} (hr : Reflects db log)
    (h : Chained db) (hrow : row ∈ db.tasks) :
    ∃ t, row = TaskRow.ofTask t ∧
      loadTaskByClientRequest row.clientRequestId db = .ok (some t, db) :=
  load_row hr hrow (decide_eq_true rfl) fun other hother hid =>
    h.requests other hother row hrow (of_decide_eq_true hid)

/-- A creation with a request id that a different task has is refused. -/
theorem create_refused {db : Db} {log : List TaskEvent} {env : Env} {input : NewTask} {row : TaskRow}
    (hr : Reflects db log) (h : Chained db) (hrow : row ∈ db.tasks)
    (hid : row.clientRequestId = input.clientRequestId)
    (hne : row.repositoryId ≠ input.repositoryId ∨ row.prompt ≠ trim input.prompt) :
    createTask env input db = .error (refusal input) := by
  unfold createTask refusal
  cases hnew : NewTask.tryNew input.clientRequestId input.repositoryId input.prompt with
  | error error => exact tx_bind_of_error rfl
  | ok new =>
    have hlift : Tx.lift (domain (Except.ok new)) db = .ok (new, db) := rfl
    obtain ⟨t, rfl, hload⟩ := load_request hr h hrow
    rw [hid] at hload
    cases NewTask.tryNew_ok hnew
    refine (tx_bind_of_ok hlift).trans ((tx_bind_of_ok hload).trans ?_)
    exact congrFun (if_pos hne) db

/-- A creation with the request id, the repository and the trimmed prompt of a
task returns the task. -/
theorem create_existing {db : Db} {log : List TaskEvent} (env : Env) {input new : NewTask}
    {row : TaskRow} (hr : Reflects db log) (h : Chained db) (hrow : row ∈ db.tasks)
    (hnew : NewTask.tryNew input.clientRequestId input.repositoryId input.prompt = .ok new)
    (hid : row.clientRequestId = input.clientRequestId)
    (hrepository : row.repositoryId = input.repositoryId) (hprompt : row.prompt = trim input.prompt) :
    ∃ t, row = TaskRow.ofTask t ∧ createTask env input db = .ok (.existing t, db) := by
  obtain ⟨t, rfl, hload⟩ := load_request hr h hrow
  rw [hid] at hload
  refine ⟨t, rfl, ?_⟩
  have hlift : Tx.lift (domain (Except.ok new)) db = .ok (new, db) := rfl
  unfold createTask
  rw [hnew]
  cases NewTask.tryNew_ok hnew
  refine (tx_bind_of_ok hlift).trans ((tx_bind_of_ok hload).trans ?_)
  exact congrFun (if_neg fun hne => hne.elim (fun h => h hrepository) fun h => h hprompt) db

/-- A retry that succeeds returns a child of its source. -/
theorem retry_row {db db' : Db} {log : List TaskEvent} {env : Env} {source : TaskId}
    {out : RetryTaskOutcome} (h : Reflects db log)
    (hok : retryTask env source db = .ok (out, db')) :
    TaskRow.ofTask out.task ∈ db'.tasks ∧ out.task.retryOf = some source := by
  obtain ⟨parent, -, rfl, -, ⟨t, rfl, rfl, hmem, hretry⟩ | ⟨t, eventId, now, db₁, rfl, hins, happ⟩⟩ :=
    retryTask_ok hok
  · exact ⟨hmem, hretry⟩
  · obtain ⟨-, htask, h'⟩ := insertQueued_reflects h rfl hins happ
    have hself : history.replay (log ++ [TaskEvent.new eventId env.taskId (.taskQueued t) now])
        env.taskId = some t :=
      EventModel.replay_snoc_self (m := history) log
        (TaskEvent.new eventId env.taskId (.taskQueued t) now)
    exact ⟨h'.mem_of_replay hself, congrArg TaskRow.retryOf htask⟩

/-- A retry of a source that has a child returns the child: the source is still
there, and has ended. -/
theorem retry_existing {db : Db} {log : List TaskEvent} (env : Env) {source : TaskId} {row : TaskRow}
    (hr : Reflects db log) (h : Chained db) (hrow : row ∈ db.tasks)
    (hretry : row.retryOf = some source) :
    ∃ t, row = TaskRow.ofTask t ∧ retryTask env source db = .ok (.existing t, db) := by
  have hsome : row.retryOf.isSome = true := by rw [hretry]; rfl
  obtain ⟨parent, hparent, hfrom⟩ := h.parents row hrow hsome
  have hid : parent.id = source := Option.some.inj (hfrom.link.symm.trans hretry)
  obtain ⟨p, rfl, hsource⟩ : ∃ p, parent = TaskRow.ofTask p ∧ loadTask source db = .ok (some p, db) :=
    load_row hr hparent (decide_eq_true hid) fun other hother hother' =>
      Chained.row_inj h.ids hother hparent ((of_decide_eq_true hother').trans hid.symm)
  obtain ⟨t, rfl, hchild⟩ : ∃ t, row = TaskRow.ofTask t ∧ loadRetryChild source db = .ok (some t, db) :=
    load_row hr hrow (decide_eq_true hretry) fun other hother hother' => by
      have hsame := of_decide_eq_true hother'
      exact h.oneChild other hother row hrow (by rw [hsame]; rfl) (hsame.trans hretry.symm)
  have hterm : p.status.isRetryable = true := hfrom.terminal
  refine ⟨t, rfl, ?_⟩
  unfold retryTask
  refine (tx_bind_of_ok hsource).trans ((tx_bind_of_ok rfl).trans ?_)
  refine (congrFun (if_neg (by rw [hterm]; exact Bool.noConfusion)) db).trans ?_
  exact tx_bind_of_ok hchild

theorem run_create {call : Call} {db : Db} {input : NewTask} {out : CreateTaskOutcome}
    (hop : call.op = .createTask input) (h : (call.run db).1 = .ok (.create out)) :
    createTask call.env input db = .ok (out, (call.run db).2) := by
  have hok := Call.run_ok h
  rw [hop] at hok
  obtain ⟨out', hout, heq⟩ := tx_map_ok.1 hok
  cases heq
  exact hout

theorem run_retry {call : Call} {db : Db} {source : TaskId} {out : RetryTaskOutcome}
    (hop : call.op = .retryTask source) (h : (call.run db).1 = .ok (.retry out)) :
    retryTask call.env source db = .ok (out, (call.run db).2) := by
  have hok := Call.run_ok h
  rw [hop] at hok
  obtain ⟨out', hout, heq⟩ := tx_map_ok.1 hok
  cases heq
  exact hout

/-- **Idempotent creation and linear retry chains**, of every reachable store. -/
theorem creation_idempotent {db : Db} (hdb : store.Reachable db) : CreationContract db := by
  have hchained := reachable_chained hdb
  obtain ⟨log, hr⟩ := reachable_reflects hdb
  refine ⟨hchained, hchained.acyclic, ?_, ?_, ?_, ?_⟩
  · intro first second calls input input' out out' hop hop' hid hout hout'
    obtain ⟨hrow, hrequest, -, -, new, hnew, hlen, hkinds⟩ := create_row hr (run_create hop hout)
    obtain ⟨row', hrow', hk⟩ := kept_after hdb first calls hrow
    obtain ⟨hkid, hkrequest, -⟩ := hk.eqs
    obtain ⟨hsame, rfl⟩ := create_again (reachable_chained (reachable_after hdb first calls)) hrow'
      (hkrequest.trans (hrequest.trans hid.symm)) (run_create hop' hout')
    exact ⟨hkid, new, [], hnew, by rw [hsame, List.append_nil], by simpa using hlen,
      by simpa using hkinds⟩
  · intro first second calls input input' out hop hop' hid hout hrepository' hprompt' hfault
    obtain ⟨hrow, hrequest, hrepository, hprompt, -⟩ := create_row hr (run_create hop hout)
    obtain ⟨new, hnew, -⟩ := createTask_ok (run_create hop hout)
    obtain ⟨row', hrow', hk⟩ := kept_after hdb first calls hrow
    obtain ⟨hkid, hkrequest, hkrepository, hkprompt, -⟩ := hk.eqs
    have hafter := reachable_after hdb first calls
    obtain ⟨log', hr'⟩ := reachable_reflects hafter
    obtain ⟨new', hnew'⟩ := NewTask.tryNew_congr hprompt' hnew input'.clientRequestId
      input'.repositoryId
    obtain ⟨task, rfl, hexisting⟩ := create_existing second.env hr' (reachable_chained hafter)
      hrow' hnew' (hkrequest.trans (hrequest.trans hid.symm))
      (hkrepository.trans (hrepository.trans hrepository'.symm))
      (hkprompt.trans (hprompt.trans hprompt'.symm))
    refine ⟨task, hkid, Call.run_reply hfault ?_⟩
    rw [hop']
    exact tx_map_of_ok hexisting
  · intro first second calls input input' out hop hop' hid hout hne hfault
    obtain ⟨hrow, hrequest, hrepository, hprompt, -⟩ := create_row hr (run_create hop hout)
    obtain ⟨row', hrow', hk⟩ := kept_after hdb first calls hrow
    obtain ⟨-, hkrequest, hkrepository, hkprompt, -⟩ := hk.eqs
    have hafter := reachable_after hdb first calls
    obtain ⟨log', hr'⟩ := reachable_reflects hafter
    have hrefused : createTask second.env input' (after db first calls) = .error (refusal input') :=
      create_refused hr' (reachable_chained hafter) hrow' (hkrequest.trans (hrequest.trans hid.symm))
        (by
          rw [hkrepository, hkprompt]
          exact hne.imp (fun h heq => h (heq.symm.trans hrepository))
            fun h heq => h (heq.symm.trans hprompt))
    refine Call.run_error hfault ?_
    rw [hop']
    exact tx_map_of_error hrefused
  · intro first second calls source out hop hop' hout hfault
    obtain ⟨hrow, hretry⟩ := retry_row hr (run_retry hop hout)
    obtain ⟨row', hrow', hk⟩ := kept_after hdb first calls hrow
    obtain ⟨hkid, -, -, -, -, hkretry⟩ := hk.eqs
    have hafter := reachable_after hdb first calls
    obtain ⟨log', hr'⟩ := reachable_reflects hafter
    obtain ⟨child, rfl, hexisting⟩ := retry_existing second.env hr' (reachable_chained hafter)
      hrow' (hkretry.trans hretry)
    refine ⟨child, hkid, hkretry.trans hretry, Call.run_reply hfault ?_⟩
    rw [hop']
    exact tx_map_of_ok hexisting

/-- A task created, cancelled and retried. -/
def sampleChain : List StoreCall :=
  [sampleRegistration, .task (sampleCreation 2),
    .task ⟨sampleEnv 3, .transitionWithEvent ⟨2⟩ .queued .cancelled, false⟩,
    .task ⟨sampleEnv 4, .retryTask ⟨2⟩, false⟩]

def sampleRetry (n : Nat) : Call := ⟨sampleEnv n, .retryTask ⟨2⟩, false⟩

/-- The third retry returns the child of the first. -/
theorem creation_idempotent_sample :
    CreationContract (StoreCall.execAll (Db.migrated []) sampleChain) ∧
      (StoreCall.execAll (Db.migrated []) sampleChain).tasks.map (fun r => (r.attempt, r.retryOf)) =
        [(1, none), (2, some ⟨2⟩)] ∧
      ∃ child, child.id = ⟨4⟩ ∧
        let db := after (StoreCall.execAll (Db.migrated []) sampleChain) (sampleRetry 5) []
        (sampleRetry 6).run db = (.ok (.retry (.existing child)), db) := by
  have hcontract := creation_idempotent (reachable_execAll sampleChain)
  have hfirst : ∃ out, ((sampleRetry 5).run (StoreCall.execAll (Db.migrated []) sampleChain)).1 =
      .ok (.retry out) ∧ out.task.id = ⟨4⟩ := ⟨_, rfl, by decide +kernel⟩
  obtain ⟨out, hout, hid⟩ := hfirst
  obtain ⟨child, hchild, -, hrun⟩ := hcontract.retries (sampleRetry 5) (sampleRetry 6) [] ⟨2⟩ out
    rfl rfl hout rfl
  exact ⟨hcontract, by decide +kernel, child, hchild.trans hid, hrun⟩

/-- A blank prompt is refused as such, whatever request has its id. -/
theorem creation_blank_prompt :
    ¬ ∀ (db : Db) (first second : Call) (calls : List StoreCall) (input input' : NewTask)
      (out : CreateTaskOutcome), store.Reachable db → first.op = .createTask input →
      second.op = .createTask input' → input'.clientRequestId = input.clientRequestId →
      (first.run db).1 = .ok (.create out) →
      (input'.repositoryId ≠ input.repositoryId ∨ trim input'.prompt ≠ trim input.prompt) →
      second.fault = false →
      second.run (after db first calls) = (.error .idempotencyConflict, after db first calls) := by
  intro h
  have hfirst : ∃ out, ((sampleCreation 2).run
      (StoreCall.execAll (Db.migrated []) [sampleRegistration])).1 = .ok (.create out) := ⟨_, rfl⟩
  obtain ⟨out, hout⟩ := hfirst
  have hconflict := h _ (sampleCreation 2) ⟨sampleEnv 3, .createTask ⟨⟨8⟩, ⟨7⟩, "  "⟩, false⟩ []
    ⟨⟨8⟩, ⟨7⟩, " prompt "⟩ ⟨⟨8⟩, ⟨7⟩, "  "⟩ out (reachable_execAll [sampleRegistration]) rfl rfl rfl
    hout (.inr (by decide)) rfl
  have hblank : ((⟨sampleEnv 3, .createTask ⟨⟨8⟩, ⟨7⟩, "  "⟩, false⟩ : Call).run
      (after (StoreCall.execAll (Db.migrated []) [sampleRegistration]) (sampleCreation 2) [])).1 =
        .error (.domain .invalidPrompt) := rfl
  rw [hconflict] at hblank
  cases hblank

end CodingAgent.L2.Store
