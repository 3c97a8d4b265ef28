import CodingAgent.Core.EventLog
import CodingAgent.L2Store.Schema

/-!
# Task histories

What the store is for, without tables: one log of events with increasing ids,
and for each task the row its own events leave behind (`applyEvent`). A
lifecycle event carries the new row; a panel event only moves
`last_event_id`. `Admissible` says which event may follow which row, and
`history` packages the two as an `EventModel`.

* `Word`: the grammar of a task's events.
* `valid_rowOf`: the row a valid log leaves of a task (its id, its checks,
  the grammar, the status named by the last lifecycle event, the largest id).
* `rowAt`: the row of a task as of a version of the log; `rowAt_grow`,
  `rowAt_version` and `rowAt_next` say how it depends on the version.
-/
namespace CodingAgent.L2.Store
open CodingAgent.L1.Domain

/-! ## The grammar -/

/-- A task's events: queued, then perhaps started and its panel events, then
perhaps one terminal event; before a start only a cancel or an interruption
can end the task. -/
def Word (w : List TaskEventKind) : Prop :=
  ∃ body ending, w = .taskQueued :: body ++ ending ∧
    (body = [] ∨ ∃ panels, body = .taskStarted :: panels ∧ ∀ k ∈ panels, k.isPanel = true) ∧
    (ending = [] ∨ ∃ k, ending = [k] ∧ k.isTerminal = true) ∧
    (body = [] → ∀ k ∈ ending, k = .taskCancelled ∨ k = .taskInterrupted)

/-- The status a lifecycle event names. -/
def statusNamed : TaskEventKind → Option TaskStatus
  | .taskQueued => some .queued
  | .taskStarted => some .running
  | .taskCompleted => some .completed
  | .taskFailed => some .failed
  | .taskCancelled => some .cancelled
  | .taskInterrupted => some .interrupted
  | .planUpdated | .activityAppended | .diffUpdated | .testUpdated => none

/-- The status named by the last lifecycle event. -/
def lastStatus (w : List TaskEventKind) : Option TaskStatus := (w.filterMap statusNamed).getLast?

@[simp] theorem statusNamed_lifecycleKind (s : TaskStatus) :
    statusNamed (lifecycleKind s) = some s := by
  cases s <;> rfl

theorem statusNamed_panel {k : TaskEventKind} (h : k.isPanel = true) : statusNamed k = none := by
  cases k <;> simp_all [TaskEventKind.isPanel, statusNamed]

theorem isTerminal_lifecycleKind {s : TaskStatus} :
    (lifecycleKind s).isTerminal = s.isRetryable := by
  cases s <;> rfl

/-- The grammar with the status it leaves, one rule for each way to append. -/
inductive Trace : TaskStatus → List TaskEventKind → Prop
  | queued : Trace .queued [.taskQueued]
  | started {w : List TaskEventKind} : Trace .queued w → Trace .running (w ++ [.taskStarted])
  | panel {w : List TaskEventKind} {k : TaskEventKind} :
    Trace .running w → k.isPanel = true → Trace .running (w ++ [k])
  | finished {s next : TaskStatus} {w : List TaskEventKind} :
    Trace s w → s.canTransitionTo next = true → next.isRetryable = true →
    Trace next (w ++ [lifecycleKind next])

theorem Trace.of_queued {w : List TaskEventKind} (h : Trace .queued w) : w = [.taskQueued] := by
  cases h with
  | queued => rfl
  | finished _ _ hr => cases hr

theorem Trace.of_running {s : TaskStatus} {w : List TaskEventKind} (h : Trace s w)
    (hs : s = .running) :
    ∃ panels, w = .taskQueued :: .taskStarted :: panels ∧ ∀ k ∈ panels, k.isPanel = true := by
  induction h with
  | queued => cases hs
  | started hq => exact ⟨[], by rw [hq.of_queued]; rfl, by simp⟩
  | @panel w k _ hk ih =>
    obtain ⟨panels, rfl, hp⟩ := ih rfl
    refine ⟨panels ++ [k], rfl, fun x hx => ?_⟩
    rcases List.mem_append.1 hx with hx | hx
    · exact hp x hx
    · rw [List.mem_singleton.1 hx]; exact hk
  | finished _ _ hr => subst hs; cases hr

theorem Trace.lastStatus {s : TaskStatus} {w : List TaskEventKind} (h : Trace s w) :
    lastStatus w = some s := by
  induction h with
  | queued => rfl
  | started _ => simp [Store.lastStatus, statusNamed]
  | panel _ hk ih => simpa [Store.lastStatus, statusNamed_panel hk] using ih
  | finished _ _ _ => simp [Store.lastStatus]

theorem Trace.word {s : TaskStatus} {w : List TaskEventKind} (h : Trace s w) : Word w := by
  cases h with
  | queued => exact ⟨[], [], rfl, .inl rfl, .inl rfl, by simp⟩
  | started hq =>
    refine ⟨[.taskStarted], [], by rw [hq.of_queued]; rfl, .inr ⟨[], rfl, by simp⟩, .inl rfl, ?_⟩
    intro h; cases h
  | @panel w k hw hk =>
    obtain ⟨panels, hp, hall⟩ := (hw.panel hk).of_running rfl
    exact ⟨.taskStarted :: panels, [], by rw [hp]; simp, .inr ⟨panels, rfl, hall⟩, .inl rfl,
      fun h => by cases h⟩
  | finished hw hc hr =>
    have hend : ∃ k, [lifecycleKind s] = [k] ∧ k.isTerminal = true :=
      ⟨_, rfl, by rw [isTerminal_lifecycleKind]; exact hr⟩
    rcases TaskStatus.canTransitionTo_from hc with rfl | rfl
    · refine ⟨[], [lifecycleKind s], by rw [hw.of_queued, List.singleton_append], .inl rfl, .inr hend, ?_⟩
      intro _ k hk
      rw [List.mem_singleton.1 hk]
      cases s <;> simp_all [TaskStatus.canTransitionTo, TaskStatus.isRetryable, lifecycleKind]
    · obtain ⟨panels, rfl, hp⟩ := hw.of_running rfl
      exact ⟨.taskStarted :: panels, [lifecycleKind s], rfl, .inr ⟨panels, rfl, hp⟩, .inr hend,
        fun h => by cases h⟩

/-! ## Rows -/

/-- The row of an event's task after it. -/
def applyEvent (row : Option Task) (event : TaskEvent) : Option Task :=
  match event.payload.task? with
  | some task => some task
  | none => row.map fun t => { t with lastEventId := event.id }

/-- The row a task has after a transition to `running`. -/
def startRow (t : Task) (now : UtcTimestamp) (eventId : EventId) : Task :=
  { t with status := .running, startedAt := some now, finishedAt := none, failure := none,
           lastEventId := eventId }

/-- The row a task has after a transition to a terminal status. -/
def finishRow (t : Task) (next : TaskStatus) (failure : Option TaskFailure) (now : UtcTimestamp)
    (eventId : EventId) : Task :=
  { t with status := next, finishedAt := some now, failure, lastEventId := eventId }

/-- Which event may follow which row. -/
inductive Follows : Option Task → TaskEvent → Prop
  | queued {e : TaskEvent} {task : Task} : e.payload = .taskQueued task → Follows none e
  | started {e : TaskEvent} {t : Task} : t.status = .queued →
    e.payload = .taskStarted (startRow t e.createdAt e.id) → Follows (some t) e
  | panel {e : TaskEvent} {t : Task} : t.status = .running → e.kind.isPanel = true →
    Follows (some t) e
  | finished {e : TaskEvent} {t : Task} {next : TaskStatus} {failure : Option TaskFailure} :
    t.status.canTransitionTo next = true → next.isRetryable = true →
    e.payload.task? = some (finishRow t next failure e.createdAt e.id) → Follows (some t) e

structure Admissible (row : Option Task) (e : TaskEvent) : Prop where
  ok : EventOk e
  follows : Follows row e

/-- One log for all tasks: keys are event ids, a stream is a task. -/
def history : EventModel TaskEvent (Option Task) TaskId Nat where
  key e := e.id.get
  stream e := e.taskId
  init := none
  apply := applyEvent
  adm := Admissible

theorem lifecycle_kind_of_task {e : TaskEvent} {task : Task} (h : EventOk e)
    (ht : e.payload.task? = some task) : e.kind = lifecycleKind task.status :=
  (h.task task ht).2.2.2

theorem applyEvent_panel {e : TaskEvent} (h : e.kind.isPanel = true) (t : Task) :
    applyEvent (some t) e = some { t with lastEventId := e.id } := by
  rw [applyEvent, (TaskEventPayload.task?_isNone_iff _).2 h]; rfl

theorem applyEvent_task {e : TaskEvent} {task : Task} (h : e.payload.task? = some task)
    (row : Option Task) : applyEvent row e = some task := by
  rw [applyEvent, h]

/-- What a task's events leave behind as its row. -/
structure RowOf (id : TaskId) (es : List TaskEvent) (row : Task) : Prop where
  id_eq : row.id = id
  wellFormed : row.WellFormed
  trace : Trace row.status (es.map (·.kind))
  last : ∃ e, es.getLast? = some e ∧ row.lastEventId = e.id
  le : ∀ e ∈ es, e.id.get ≤ row.lastEventId.get

theorem wellFormed_bump {t : Task} (h : t.WellFormed) (id : EventId) :
    Task.WellFormed { t with lastEventId := id } :=
  ⟨h.attempt, h.state⟩

/-- One event keeps `RowOf`. -/
theorem rowOf_snoc {id : TaskId} {es : List TaskEvent} {row : Option Task} {e : TaskEvent}
    (ht : e.taskId = id) (hk : ∀ x ∈ es, x.id.get < e.id.get)
    (h : (es = [] ∧ row = none) ∨ ∃ t, row = some t ∧ RowOf id es t) (ha : Admissible row e) :
    ∃ t, applyEvent row e = some t ∧ RowOf id (es ++ [e]) t := by
  have hle : ∀ x ∈ es ++ [e], x.id.get ≤ e.id.get := by
    intro x hx
    rcases List.mem_append.1 hx with hx | hx
    · exact Nat.le_of_lt (hk x hx)
    · rw [List.mem_singleton.1 hx]
  -- a lifecycle event replaces the row by the one it carries
  have lifecycle : ∀ task, e.payload.task? = some task →
      Trace task.status ((es ++ [e]).map (·.kind)) →
      ∃ t, applyEvent row e = some t ∧ RowOf id (es ++ [e]) t := by
    intro task hp htr
    obtain ⟨hw, hid, hl, -⟩ := ha.ok.task task hp
    refine ⟨task, applyEvent_task hp row, hid.trans ht, hw, htr, ⟨e, by simp, hl⟩, ?_⟩
    rw [hl]; exact hle
  have hsnoc : (es ++ [e]).map (·.kind) = es.map (·.kind) ++ [e.kind] := by simp
  cases ha.follows with
  | @queued _ task hp =>
    obtain ⟨rfl, -⟩ | ⟨t, hrow, -⟩ := h
    · have hp' : e.payload.task? = some task := by rw [hp]; rfl
      have hkind : e.kind = lifecycleKind task.status := lifecycle_kind_of_task ha.ok hp'
      have hq : e.kind = .taskQueued := by rw [TaskEvent.kind, hp]; rfl
      have hst : task.status = .queued := by
        rw [hq] at hkind
        cases hs : task.status <;> rw [hs] at hkind <;> first | rfl | cases hkind
      refine lifecycle task hp' ?_
      rw [hst, hsnoc, hq]
      exact .queued
    · cases hrow
  | @started _ t hq hp =>
    obtain ⟨-, hrow⟩ | ⟨t', hrow, hr⟩ := h
    · cases hrow
    · cases hrow
      have hk' : e.kind = .taskStarted := by rw [TaskEvent.kind, hp]; rfl
      refine lifecycle (startRow t e.createdAt e.id) (by rw [hp]; rfl) ?_
      rw [hsnoc, hk']
      exact .started (hq ▸ hr.trace)
  | @panel _ t hrun hpan =>
    obtain ⟨-, hrow⟩ | ⟨t', hrow, hr⟩ := h
    · cases hrow
    · cases hrow
      refine ⟨_, applyEvent_panel hpan t, hr.id_eq, wellFormed_bump hr.wellFormed e.id, ?_,
        ⟨e, by simp, rfl⟩, hle⟩
      rw [hsnoc]
      have htr := hr.trace
      rw [hrun] at htr
      show Trace t.status _
      rw [hrun]
      exact .panel htr hpan
  | @finished _ t next failure hc hret hp =>
    obtain ⟨-, hrow⟩ | ⟨t', hrow, hr⟩ := h
    · cases hrow
    · cases hrow
      refine lifecycle _ hp ?_
      rw [hsnoc, lifecycle_kind_of_task ha.ok hp]
      exact .finished hr.trace hc hret

/-- **The row of every task of a valid log.** No events and no row, or the
row that `RowOf` describes. -/
theorem valid_rowOf {log : List TaskEvent} (h : history.Valid log) (id : TaskId) :
    (history.streamOf log id = [] ∧ history.replay log id = none) ∨
      ∃ t, history.replay log id = some t ∧ RowOf id (history.streamOf log id) t := by
  refine h.stream_inv (P := fun id es row => (es = [] ∧ row = none) ∨
    ∃ t, row = some t ∧ RowOf id es t) (fun _ => .inl ⟨rfl, rfl⟩) ?_ id
  intro t es row e ht ih hk ha
  exact .inr (rowOf_snoc ht hk ih ha)

theorem valid_rowOf_some {log : List TaskEvent} (h : history.Valid log) {id : TaskId} {t : Task}
    (ht : history.replay log id = some t) : RowOf id (history.streamOf log id) t := by
  rcases valid_rowOf h id with ⟨-, hn⟩ | ⟨t', ht', hr⟩
  · rw [hn] at ht; cases ht
  · rw [ht'] at ht; cases ht; exact hr

/-- Every event of a valid log passes the checks of its decoder. -/
theorem valid_eventOk {log : List TaskEvent} (h : history.Valid log) :
    ∀ e ∈ log, EventOk e := by
  intro e he
  obtain ⟨pre, post, rfl⟩ := List.append_of_mem he
  exact h.adm_at.ok

/-- A task that has a row has an event. -/
theorem valid_replay_none {log : List TaskEvent} (h : history.Valid log) {id : TaskId}
    (hn : history.replay log id = none) : history.streamOf log id = [] := by
  rcases valid_rowOf h id with ⟨hs, -⟩ | ⟨t', ht', -⟩
  · exact hs
  · rw [ht'] at hn; cases hn

/-- A row whose status is terminal is followed by no event. -/
theorem not_follows_terminal {t : Task} (h : t.status.isRetryable = true) (e : TaskEvent) :
    ¬ Follows (some t) e := by
  intro hf
  cases hf with
  | started hq _ => rw [hq] at h; cases h
  | panel hr _ => rw [hr] at h; cases h
  | finished hc _ _ =>
    rcases TaskStatus.canTransitionTo_from hc with hs | hs <;> rw [hs] at h <;> cases h

/-- **Terminal rows are final.** Whatever is appended to the log, a task that
is terminal keeps its row and gets no event. -/
theorem valid_terminal_stable {log new : List TaskEvent} (h : history.Valid (log ++ new))
    {id : TaskId} {t : Task} (ht : history.replay log id = some t)
    (hterm : t.status.isRetryable = true) :
    history.streamOf new id = [] ∧ history.replay (log ++ new) id = some t := by
  induction new using List.reverseRecOn with
  | nil => exact ⟨rfl, by rw [List.append_nil]; exact ht⟩
  | append_singleton new e ih =>
    rw [← List.append_assoc] at h ⊢
    obtain ⟨hv, -, ha⟩ := EventModel.valid_snoc_iff.1 h
    obtain ⟨hs, hr⟩ := ih hv
    have hne : history.stream e ≠ id := by
      intro heq
      rw [heq, hr] at ha
      exact not_follows_terminal hterm e ha.follows
    rw [EventModel.streamOf_snoc, EventModel.replay_snoc, if_neg hne, if_neg hne]
    exact ⟨hs, hr⟩

/-- The fields no operation rewrites, and that a terminal row is final. -/
structure Keeps (t t' : Task) : Prop where
  id : t'.id = t.id
  clientRequestId : t'.clientRequestId = t.clientRequestId
  repositoryId : t'.repositoryId = t.repositoryId
  prompt : t'.prompt = t.prompt
  attempt : t'.attempt = t.attempt
  retryOf : t'.retryOf = t.retryOf
  terminal : t.status.isRetryable = true → t' = t

theorem Keeps.refl (t : Task) : Keeps t t := ⟨rfl, rfl, rfl, rfl, rfl, rfl, fun _ => rfl⟩

theorem Keeps.trans {a b c : Task} (h₁ : Keeps a b) (h₂ : Keeps b c) : Keeps a c where
  id := h₂.id.trans h₁.id
  clientRequestId := h₂.clientRequestId.trans h₁.clientRequestId
  repositoryId := h₂.repositoryId.trans h₁.repositoryId
  prompt := h₂.prompt.trans h₁.prompt
  attempt := h₂.attempt.trans h₁.attempt
  retryOf := h₂.retryOf.trans h₁.retryOf
  terminal ht := (h₂.terminal (by rw [h₁.terminal ht]; exact ht)).trans (h₁.terminal ht)

/-- One event. -/
theorem Follows.keeps {t : Task} {e : TaskEvent} (h : Follows (some t) e) :
    ∃ t', applyEvent (some t) e = some t' ∧ Keeps t t' := by
  have hlive : t.status.isRetryable = true → False := fun ht => not_follows_terminal ht e h
  cases h with
  | started _ hp =>
    exact ⟨startRow t e.createdAt e.id, applyEvent_task (by rw [hp]; rfl) _, rfl, rfl, rfl, rfl, rfl, rfl,
      fun ht => (hlive ht).elim⟩
  | panel _ hk =>
    exact ⟨_, applyEvent_panel hk t, rfl, rfl, rfl, rfl, rfl, rfl, fun ht => (hlive ht).elim⟩
  | finished _ _ hp =>
    exact ⟨_, applyEvent_task hp _, rfl, rfl, rfl, rfl, rfl, rfl, fun ht => (hlive ht).elim⟩

/-- A row keeps its identity while the log grows. -/
theorem replay_keeps {log new : List TaskEvent} (h : history.Valid (log ++ new)) {id : TaskId}
    {t : Task} (ht : history.replay log id = some t) :
    ∃ t', history.replay (log ++ new) id = some t' ∧ Keeps t t' := by
  induction new using List.reverseRecOn with
  | nil => exact ⟨t, by rw [List.append_nil]; exact ht, .refl t⟩
  | append_singleton new e ih =>
    rw [← List.append_assoc] at h ⊢
    obtain ⟨hv, -, ha⟩ := EventModel.valid_snoc_iff.1 h
    obtain ⟨t', ht', hk⟩ := ih hv
    rw [EventModel.replay_snoc]
    split
    · rename_i heq
      rw [heq, ht'] at ha
      obtain ⟨t'', happ, hk'⟩ := ha.follows.keeps
      exact ⟨t'', by rw [ht']; exact happ, hk.trans hk'⟩
    · exact ⟨t', ht', hk⟩

/-- Events of tasks that have a row make no new row. -/
theorem replay_old {log new : List TaskEvent} (h : history.Valid (log ++ new))
    (hnew : ∀ e ∈ new, history.replay log e.taskId ≠ none) {id : TaskId} {t' : Task}
    (ht' : history.replay (log ++ new) id = some t') :
    ∃ t, history.replay log id = some t ∧ Keeps t t' := by
  cases ht : history.replay log id with
  | some t =>
    obtain ⟨u, hu, hk⟩ := replay_keeps h ht
    cases ht'.symm.trans hu
    exact ⟨t, rfl, hk⟩
  | none =>
    have hstream : history.streamOf new id = [] := by
      refine List.filter_eq_nil_iff.2 fun e he hid => hnew e he ?_
      rw [show e.taskId = id from of_decide_eq_true hid]
      exact ht
    rw [EventModel.replay_append, hstream] at ht'
    cases ht.symm.trans ht'

/-! ## Versions -/

/-- The largest id of a log. -/
def latest (log : List TaskEvent) : Nat := (log.map fun e => e.id.get).foldl max 0

@[simp] theorem latest_snoc (log : List TaskEvent) (e : TaskEvent) :
    latest (log ++ [e]) = max (latest log) e.id.get := by
  simp [latest, List.map_append, List.foldl_append]

theorem le_latest {log : List TaskEvent} : ∀ e ∈ log, e.id.get ≤ latest log := by
  induction log using List.reverseRecOn with
  | nil => intro e he; cases he
  | append_singleton log a ih =>
    intro e he
    rw [latest_snoc]
    rcases List.mem_append.1 he with he | he
    · exact Nat.le_trans (ih e he) (Nat.le_max_left ..)
    · rw [List.mem_singleton.1 he]; exact Nat.le_max_right ..

theorem latest_le {log : List TaskEvent} {n : Nat} (h : ∀ e ∈ log, e.id.get ≤ n) :
    latest log ≤ n := by
  induction log using List.reverseRecOn with
  | nil => exact Nat.zero_le n
  | append_singleton log a ih =>
    rw [latest_snoc]
    exact Nat.max_le.2 ⟨ih fun e he => h e (List.mem_append_left [a] he),
      h a (List.mem_append_right log (List.mem_singleton.2 rfl))⟩

/-- Events appended to a valid log are beyond its latest id. -/
theorem latest_lt {log new : List TaskEvent} (h : history.Valid (log ++ new)) :
    ∀ e ∈ new, latest log < e.id.get := by
  intro e he
  have hle : latest log ≤ e.id.get - 1 := by
    refine latest_le fun x hx => ?_
    have : x.id.get < e.id.get := h.beyond x hx e he
    omega
  have := e.id.pos
  omega

/-- The row of a task as of version `v`: what its events up to `v` leave. -/
def rowAt (log : List TaskEvent) (id : TaskId) (v : Nat) : Option Task :=
  history.replay (history.cut v log) id

/-- The row of the newest version. -/
theorem rowAt_latest (log : List TaskEvent) (id : TaskId) :
    rowAt log id (latest log) = history.replay log id := by
  rw [rowAt, EventModel.cut_self le_latest]

theorem cut_grow {log new : List TaskEvent} (h : history.Valid (log ++ new)) {v : Nat}
    (hv : v ≤ latest log) : history.cut v (log ++ new) = history.cut v log := by
  have hnew : history.cut v new = [] := by
    refine List.filter_eq_nil_iff.2 fun e he => ?_
    have := latest_lt h e he
    show ¬ decide (e.id.get ≤ v) = true
    simp
    omega
  rw [EventModel.cut, List.filter_append]
  exact (congrArg _ hnew).trans (List.append_nil _)

/-- Old versions do not change while the log grows. -/
theorem rowAt_grow {log new : List TaskEvent} (h : history.Valid (log ++ new)) (id : TaskId)
    {v : Nat} (hv : v ≤ latest log) : rowAt (log ++ new) id v = rowAt log id v := by
  rw [rowAt, cut_grow h hv, rowAt]

/-- A task's row is the same at two versions with the same events of the task. -/
theorem rowAt_congr {log : List TaskEvent} {id : TaskId} {v w : Nat}
    (h : ∀ e ∈ log, e.taskId = id → (e.id.get ≤ v ↔ e.id.get ≤ w)) :
    rowAt log id v = rowAt log id w := by
  have hs : history.streamOf (history.cut v log) id = history.streamOf (history.cut w log) id := by
    rw [EventModel.streamOf_cut, EventModel.streamOf_cut]
    exact EventModel.cut_congr fun e he =>
      h e (EventModel.mem_streamOf.1 he).1 (EventModel.mem_streamOf.1 he).2
  rw [rowAt, rowAt, EventModel.replay, hs, EventModel.replay]

/-- What a version of a row says about the log: the row's own version has the
same row, and it is the id of the last event of the task up to there. -/
structure RowVersion (log : List TaskEvent) (id : TaskId) (v : Nat) (t : Task) : Prop where
  id_eq : t.id = id
  row : rowAt log id t.lastEventId.get = some t
  le : t.lastEventId.get ≤ v
  mem : ∃ e ∈ log, e.taskId = id ∧ e.id = t.lastEventId
  last : ∀ e ∈ log, e.taskId = id → e.id.get ≤ v → e.id.get ≤ t.lastEventId.get

theorem rowAt_version {log : List TaskEvent} (h : history.Valid log) {id : TaskId} {v : Nat}
    {t : Task} (ht : rowAt log id v = some t) : RowVersion log id v t := by
  have hr := valid_rowOf_some (h.cut v) ht
  have hmem : ∀ e, e ∈ history.streamOf (history.cut v log) id ↔
      e ∈ log ∧ e.id.get ≤ v ∧ e.taskId = id := by
    intro e
    rw [EventModel.mem_streamOf, EventModel.mem_cut, and_assoc]
    rfl
  obtain ⟨e, hlast, hl⟩ := hr.last
  obtain ⟨helog, hev, heid⟩ := (hmem e).1 (List.mem_of_getLast? hlast)
  have hle : t.lastEventId.get ≤ v := by rw [hl]; exact hev
  have hall : ∀ x ∈ log, x.taskId = id → x.id.get ≤ v → x.id.get ≤ t.lastEventId.get :=
    fun x hx hid hv => hr.le x ((hmem x).2 ⟨hx, hv, hid⟩)
  refine ⟨hr.id_eq, ?_, hle, ⟨e, helog, heid, hl.symm⟩, hall⟩
  rw [← ht]
  exact rowAt_congr fun x hx hid => ⟨fun hx' => Nat.le_trans hx' hle, hall x hx hid⟩

/-- The next event of a task applied to its row. -/
theorem rowAt_next {log : List TaskEvent} (h : history.Valid log) {e : TaskEvent} {v : Nat}
    (he : e ∈ log) (hv : v < e.id.get)
    (hnext : ∀ x ∈ log, x.taskId = e.taskId → v < x.id.get → e.id.get ≤ x.id.get) :
    rowAt log e.taskId e.id.get = applyEvent (rowAt log e.taskId v) e := by
  have hn : IdLog.Next history.key (history.streamOf log e.taskId) v e := by
    refine ⟨EventModel.mem_streamOf.2 ⟨he, rfl⟩, hv, fun x hx hlt => ?_⟩
    obtain ⟨hx, hid⟩ := EventModel.mem_streamOf.1 hx
    exact hnext x hx hid hlt
  have hs : history.streamOf (history.cut e.id.get log) e.taskId =
      history.streamOf (history.cut v log) e.taskId ++ [e] := by
    rw [EventModel.streamOf_cut, EventModel.streamOf_cut]
    exact EventModel.cut_next (h.stream_increasing _) hn
  rw [rowAt, EventModel.replay, hs, List.foldl_append]
  rfl

end CodingAgent.L2.Store
