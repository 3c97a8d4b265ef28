import CodingAgent.L2Store.Projection

/-!
# The client's task detail (`web/src/state/reducer.ts`)

`applyEventToDetail` keeps a selected task up to date from single events, as
`project_task_detail` computes it from a whole log.

* `apply_next`: one event in order takes the server's projection of a log to
  its projection of the log with that event.
* `apply_old`: an event at or below the detail's cursor changes nothing.
* `detail_agrees`: the two agree for every log of a task, every split and
  every delivery with overlaps and repetitions.
-/
namespace CodingAgent.L5.Web
open CodingAgent.L1.Domain CodingAgent.L2 CodingAgent.L2.Store

/-- mirrors web/src/state/reducer.ts:148-163 -/
def lifecycleLabel : TaskEventKind → String
  | .taskQueued => "Task queued"
  | .taskStarted => "Task started"
  | .taskCompleted => "Task completed"
  | .taskFailed => "Task failed"
  | .taskCancelled => "Task cancelled"
  | .taskInterrupted => "Task interrupted"
  | .planUpdated | .activityAppended | .diffUpdated | .testUpdated => ""

/-- The entry of a lifecycle event that carries `task`; a null failure and an
absent one are both `none`.
mirrors web/src/state/reducer.ts:165-174 -/
def timelineEntry (event : TaskEvent) (task : Task) : TimelineEntry :=
  { eventId := event.id, kind := event.kind, label := lifecycleLabel event.kind,
    createdAt := event.createdAt, failure := task.failure }

/-- mirrors web/src/state/reducer.ts:176-184 -/
def updateDetailTaskCursor (detail : TaskDetail) (event : TaskEvent) : TaskDetail :=
  if event.id.get ≤ detail.task.lastEventId.get then detail
  else { detail with task := { detail.task with lastEventId := event.id } }

/-- The `switch` of `applyEventToDetail`. -/
def projectOnDetail (next : TaskDetail) (event : TaskEvent) : TaskDetail :=
  match event.payload with
  | .planUpdated plan => { next with plan := some plan }
  | .activityAppended entry =>
    if next.activity.any fun existing => existing.id = entry.id then next
    else { next with activity := next.activity ++ [entry] }
  | .diffUpdated diff => { next with diff := some diff }
  | .testUpdated tests => { next with tests := some tests }
  | .taskQueued task | .taskStarted task | .taskCompleted task | .taskFailed task
  | .taskCancelled task | .taskInterrupted task =>
    let timeline :=
      if next.timeline.any fun item => item.eventId = event.id then next.timeline
      else next.timeline ++ [timelineEntry event task]
    { next with task := task, timeline }

/-- mirrors web/src/state/reducer.ts:186-224 -/
def applyEventToDetail (detail : TaskDetail) (event : TaskEvent) : TaskDetail :=
  if event.taskId ≠ detail.task.id ∨ event.id.get ≤ detail.eventCursor then detail
  else { projectOnDetail (updateDetailTaskCursor detail event) event with
    eventCursor := event.id.get }

/-! ## A task's log -/

/-- The events of one task, as the decoder accepts them, in id order. -/
structure TaskEvents (id : TaskId) (es : List TaskEvent) : Prop where
  owner : ∀ e ∈ es, e.taskId = id
  increasing : es.Pairwise fun a b => a.id.get < b.id.get
  ok : ∀ e ∈ es, EventOk e

/-- A log of one task that satisfies the store's grammar. -/
structure TaskLog (id : TaskId) (es : List TaskEvent) : Prop extends TaskEvents id es where
  word : Word (es.map (·.kind))

/-- The row of the task after `es`. -/
def rowAfter (es : List TaskEvent) : Option Task := es.foldl applyEvent none

theorem rowAfter_snoc (es : List TaskEvent) (e : TaskEvent) :
    rowAfter (es ++ [e]) = applyEvent (rowAfter es) e := by
  rw [rowAfter, List.foldl_append]; rfl

theorem TaskEvents.left {id : TaskId} {es fs : List TaskEvent} (h : TaskEvents id (es ++ fs)) :
    TaskEvents id es where
  owner e he := h.owner e (List.mem_append_left fs he)
  increasing := (List.pairwise_append.1 h.increasing).1
  ok e he := h.ok e (List.mem_append_left fs he)

theorem TaskEvents.last_lt {id : TaskId} {es : List TaskEvent} {e : TaskEvent}
    (h : TaskEvents id (es ++ [e])) : ∀ x ∈ es, x.id.get < e.id.get :=
  fun x hx => (List.pairwise_append.1 h.increasing).2.2 x hx e (List.mem_singleton.2 rfl)

/-- The row belongs to the task and its version is the id of one of the
events. -/
theorem row_facts {id : TaskId} {es : List TaskEvent} (h : TaskEvents id es) {row : Task}
    (hrow : rowAfter es = some row) : row.id = id ∧ ∃ e ∈ es, row.lastEventId = e.id := by
  induction es using List.reverseRecOn generalizing row with
  | nil => cases hrow
  | append_singleton es e ih =>
    have he : e ∈ es ++ [e] := List.mem_append_right es (List.mem_singleton.2 rfl)
    rw [rowAfter_snoc] at hrow
    cases hp : e.payload.task? with
    | some task =>
      rw [applyEvent_task hp] at hrow
      cases hrow
      obtain ⟨-, hid, hl, -⟩ := (h.ok e he).task row hp
      exact ⟨hid.trans (h.owner e he), e, he, hl⟩
    | none =>
      rw [applyEvent, hp] at hrow
      cases hprev : rowAfter es with
      | none => rw [hprev] at hrow; cases hrow
      | some prev =>
        rw [hprev] at hrow
        cases hrow
        exact ⟨(ih h.left hprev).1, e, he, rfl⟩

/-! ## The server's fold -/

/-- Every timeline entry is of one of the events. -/
theorem timeline_mem (task : Task) (es : List TaskEvent) (c : Nat) :
    ∀ item ∈ (projectTaskDetail task es c).timeline, ∃ e ∈ es, item.eventId = e.id := by
  induction es using List.reverseRecOn with
  | nil => intro item hi; cases hi
  | append_singleton es e ih =>
    have hold : ∀ item ∈ (projectTaskDetail task es c).timeline,
        ∃ x ∈ es ++ [e], item.eventId = x.id := by
      intro item hi
      obtain ⟨x, hx, heq⟩ := ih item hi
      exact ⟨x, List.mem_append_left [e] hx, heq⟩
    rw [projectTaskDetail_snoc]
    intro item hi
    -- only a lifecycle event adds an entry, its own
    have hcases : item ∈ (projectTaskDetail task es c).timeline ∨ item.eventId = e.id := by
      unfold projectEvent at hi
      split at hi
      case h_2 => split at hi <;> exact .inl hi
      case h_1 | h_3 | h_4 => exact .inl hi
      all_goals
        rcases List.mem_append.1 hi with hi | hi
        · exact .inl hi
        · rw [List.mem_singleton.1 hi]; exact .inr rfl
    rcases hcases with hi | hi
    · exact hold item hi
    · exact ⟨e, List.mem_append_right es (List.mem_singleton.2 rfl), hi⟩

/-! ## One event -/

/-- Both sides build the same timeline entry. -/
theorem timelineEntry_agrees {e : TaskEvent} {task : Task} (h : EventOk e)
    (hp : e.payload.task? = some task) :
    timelineEntry e task = Store.timelineEntry e task.failure := by
  obtain ⟨hw, -, -, hk⟩ := h.task task hp
  have hs := hw.state
  have hlabel : ∀ k, lifecycleLabel k = timelineLabel k := by intro k; cases k <;> rfl
  have hkind : e.payload.kind = lifecycleKind task.status := hk
  simp only [timelineEntry, Store.timelineEntry, TaskEvent.kind, hlabel, hkind,
    TimelineEntry.mk.injEq, true_and]
  cases hst : task.status <;> simp_all [Task.stateIsValid, lifecycleKind]

/-- The `switch` and the server's step agree where no entry repeats. -/
theorem projectOnDetail_agrees {d : TaskDetail} {e : TaskEvent} (h : EventOk e)
    (hnew : ∀ item ∈ d.timeline, item.eventId ≠ e.id) :
    projectOnDetail d e =
      { projectEvent d e with task := (e.payload.task?).getD d.task } := by
  have hany : (d.timeline.any fun item => item.eventId = e.id) = false := by
    simpa using hnew
  have htl : ∀ task, e.payload.task? = some task →
      timelineEntry e task = Store.timelineEntry e task.failure := fun _ => timelineEntry_agrees h
  obtain ⟨id, schema, taskId, payload, createdAt⟩ := e
  cases payload with
  | activityAppended entry =>
    simp only [projectOnDetail, projectEvent, TaskEventPayload.task?, Option.getD_none]
    by_cases hact : ∀ x ∈ d.activity, x.id ≠ entry.id
    · rw [if_neg (by simpa using hact), if_pos (by simpa using hact)]
    · rw [if_pos (by simpa using hact), if_neg (by simpa using hact)]
  | planUpdated plan => rfl
  | diffUpdated diff => rfl
  | testUpdated tests => rfl
  | taskQueued task => simp [projectOnDetail, projectEvent, hany, htl task rfl, TaskEventPayload.task?]
  | taskStarted task => simp [projectOnDetail, projectEvent, hany, htl task rfl, TaskEventPayload.task?]
  | taskCompleted task =>
    simp [projectOnDetail, projectEvent, hany, htl task rfl, TaskEventPayload.task?]
  | taskFailed task => simp [projectOnDetail, projectEvent, hany, htl task rfl, TaskEventPayload.task?]
  | taskCancelled task =>
    simp [projectOnDetail, projectEvent, hany, htl task rfl, TaskEventPayload.task?]
  | taskInterrupted task =>
    simp [projectOnDetail, projectEvent, hany, htl task rfl, TaskEventPayload.task?]

/-- **One event in order.** -/
theorem apply_next {id : TaskId} {es : List TaskEvent} {e : TaskEvent} {row : Task} {c : Nat}
    (h : TaskEvents id (es ++ [e])) (hrow : rowAfter es = some row) (hc : c < e.id.get) :
    ∃ row', rowAfter (es ++ [e]) = some row' ∧
      applyEventToDetail (projectTaskDetail row es c) e =
        projectTaskDetail row' (es ++ [e]) e.id.get := by
  have he : e ∈ es ++ [e] := List.mem_append_right es (List.mem_singleton.2 rfl)
  obtain ⟨hid, x, hx, hlast⟩ := row_facts h.left hrow
  have hlt : row.lastEventId.get < e.id.get := by rw [hlast]; exact h.last_lt x hx
  have hmine : ¬ (e.taskId ≠ row.id ∨ e.id.get ≤ c) := by
    rw [h.owner e he, hid]
    simp only [ne_eq, not_true_eq_false, false_or]
    omega
  -- the bumped row is what a panel event leaves
  have hbump : updateDetailTaskCursor (projectTaskDetail row es c) e =
      projectTaskDetail { row with lastEventId := e.id } es c := by
    rw [updateDetailTaskCursor, projectTaskDetail_task, if_neg (by omega),
      projectTaskDetail_with row { row with lastEventId := e.id } es c c]
    simp
  have hnew : ∀ item ∈ (projectTaskDetail { row with lastEventId := e.id } es c).timeline,
      item.eventId ≠ e.id := by
    intro item hi heq
    obtain ⟨y, hy, hyid⟩ := timeline_mem _ es c item hi
    have := h.last_lt y hy
    rw [← hyid, heq] at this
    omega
  refine ⟨(e.payload.task?).getD { row with lastEventId := e.id }, ?_, ?_⟩
  · rw [rowAfter_snoc, hrow, applyEvent]
    cases e.payload.task? <;> rfl
  · rw [applyEventToDetail, projectTaskDetail_task, projectTaskDetail_eventCursor, if_neg hmine,
      hbump, projectOnDetail_agrees (h.ok e he) hnew, projectTaskDetail_task,
      ← projectTaskDetail_snoc]
    exact (projectTaskDetail_with ..).symm

theorem apply_old {d : TaskDetail} {e : TaskEvent} (h : e.id.get ≤ d.eventCursor) :
    applyEventToDetail d e = d :=
  if_pos (.inr h)

theorem apply_other {d : TaskDetail} {e : TaskEvent} (h : e.taskId ≠ d.task.id) :
    applyEventToDetail d e = d :=
  if_pos (.inl h)

/-! ## Deliveries -/

/-- A delivery `fed` of the events `done` of a log beyond cursor `c`: they
come in order, and in between come any events at or below the cursor and any
that were delivered before. -/
inductive Delivery (c : Nat) : List TaskEvent → List TaskEvent → Prop
  | nil : Delivery c [] []
  | next {fed done : List TaskEvent} (e : TaskEvent) : Delivery c fed done →
    Delivery c (fed ++ [e]) (done ++ [e])
  | repeated {fed done : List TaskEvent} (e : TaskEvent) : Delivery c fed done →
    (e.id.get ≤ c ∨ e ∈ done) → Delivery c (fed ++ [e]) done

/-- Events in order are a delivery. -/
theorem delivery_self (c : Nat) (es : List TaskEvent) : Delivery c es es := by
  induction es using List.reverseRecOn with
  | nil => exact .nil
  | append_singleton es e ih => exact .next e ih

/-- The cursor after the events `done`. -/
def cursorAfter (c : Nat) (done : List TaskEvent) : Nat :=
  IdLog.endKey (fun e : TaskEvent => e.id.get) c done

theorem le_cursorAfter {id : TaskId} {c : Nat} {done : List TaskEvent} (h : TaskEvents id done)
    (hc : ∀ e ∈ done, c < e.id.get) : c ≤ cursorAfter c done ∧
      ∀ e ∈ done, e.id.get ≤ cursorAfter c done := by
  induction done using List.reverseRecOn with
  | nil => exact ⟨Nat.le_refl c, by simp⟩
  | append_singleton done a ih =>
    have ha : a ∈ done ++ [a] := List.mem_append_right done (List.mem_singleton.2 rfl)
    have hend : cursorAfter c (done ++ [a]) = a.id.get := IdLog.endKey_snoc c done a
    rw [hend]
    refine ⟨Nat.le_of_lt (hc a ha), fun e he => ?_⟩
    rcases List.mem_append.1 he with he | he
    · exact Nat.le_of_lt (h.last_lt e he)
    · rw [List.mem_singleton.1 he]

/-- What the client has after a delivery, and that repeating an event then
changes nothing. -/
structure Agrees (pre : List TaskEvent) (c : Nat) (row : Task) (fed done : List TaskEvent) :
    Prop where
  detail : ∃ now, rowAfter (pre ++ done) = some now ∧
    fed.foldl applyEventToDetail (projectTaskDetail row pre c) =
      projectTaskDetail now (pre ++ done) (cursorAfter c done)
  repeated : ∀ e, e.id.get ≤ c ∨ e ∈ done →
    applyEventToDetail (fed.foldl applyEventToDetail (projectTaskDetail row pre c)) e =
      fed.foldl applyEventToDetail (projectTaskDetail row pre c)

theorem delivery_agrees {id : TaskId} {pre : List TaskEvent} {row : Task} {c : Nat}
    (hrow : rowAfter pre = some row) {fed done : List TaskEvent} (hd : Delivery c fed done)
    (h : TaskEvents id (pre ++ done)) (hc : ∀ e ∈ done, c < e.id.get) :
    Agrees pre c row fed done := by
  have finish : ∀ {fed done : List TaskEvent}, TaskEvents id (pre ++ done) →
      (∀ e ∈ done, c < e.id.get) →
      (∃ now, rowAfter (pre ++ done) = some now ∧
        fed.foldl applyEventToDetail (projectTaskDetail row pre c) =
          projectTaskDetail now (pre ++ done) (cursorAfter c done)) →
      Agrees pre c row fed done := by
    intro fed done h hc hdet
    refine ⟨hdet, fun e he => apply_old ?_⟩
    obtain ⟨now, -, heq⟩ := hdet
    have hdone : TaskEvents id done :=
      ⟨fun e he => h.owner e (List.mem_append_right pre he),
        (List.pairwise_append.1 h.increasing).2.1, fun e he => h.ok e (List.mem_append_right pre he)⟩
    obtain ⟨hle, hall⟩ := le_cursorAfter hdone hc
    rw [heq, projectTaskDetail_eventCursor]
    rcases he with he | he
    · exact Nat.le_trans he hle
    · exact hall e he
  induction hd with
  | nil => exact finish h hc ⟨row, by rw [List.append_nil]; exact hrow, by rw [List.append_nil]; rfl⟩
  | @next fed done e _ ih =>
    have hcdone : ∀ x ∈ done, c < x.id.get := fun x hx => hc x (List.mem_append_left [e] hx)
    rw [← List.append_assoc] at h
    obtain ⟨now, hnow, heq⟩ := (ih h.left hcdone).detail
    have hcur : cursorAfter c done < e.id.get := by
      rcases List.eq_nil_or_concat' done with rfl | ⟨init, l, rfl⟩
      · exact hc e (by simp)
      · have hend : cursorAfter c (init ++ [l]) = l.id.get := IdLog.endKey_snoc c init l
        rw [hend]
        exact h.last_lt l (by simp)
    obtain ⟨row', hrow', happly⟩ := apply_next h hnow hcur
    have hend : cursorAfter c (done ++ [e]) = e.id.get := IdLog.endKey_snoc c done e
    refine finish (by rw [← List.append_assoc]; exact h) hc ⟨row', ?_, ?_⟩
    · rw [← List.append_assoc]; exact hrow'
    · rw [List.foldl_append, heq, hend, ← List.append_assoc]; exact happly
  | @repeated fed done e _ he ih =>
    have hag := ih h hc
    obtain ⟨now, hnow, heq⟩ := hag.detail
    refine finish h hc ⟨now, hnow, ?_⟩
    rw [List.foldl_append]
    exact (hag.repeated e he).trans heq

/-- A task with an event has a row: the grammar starts with `task.queued`. -/
theorem row_of_taskLog {id : TaskId} {pre suf : List TaskEvent} (h : TaskLog id (pre ++ suf))
    (hne : pre ≠ []) : ∃ row, rowAfter pre = some row := by
  obtain ⟨e, rest, rfl⟩ := List.exists_cons_of_ne_nil hne
  obtain ⟨body, ending, hw, -⟩ := h.word
  have hk : e.kind = .taskQueued := by
    simp only [List.cons_append, List.map_cons, List.cons.injEq] at hw
    exact hw.1
  have hfirst : ∃ task, e.payload.task? = some task := by
    revert hk
    simp only [TaskEvent.kind]
    cases e.payload <;> simp [TaskEventPayload.kind, TaskEventPayload.task?]
  obtain ⟨task, hp⟩ := hfirst
  have hkeep : ∀ (es : List TaskEvent) (t : Task), ∃ row, es.foldl applyEvent (some t) = some row := by
    intro es
    induction es with
    | nil => exact fun t => ⟨t, rfl⟩
    | cons x es ih =>
      intro t
      rw [List.foldl_cons, applyEvent]
      cases x.payload.task? with
      | some t' => exact ih t'
      | none => exact ih _
  rw [rowAfter, List.foldl_cons, applyEvent_task hp]
  exact hkeep rest task

/-- The agreement of the two projections of a task at one split of its log. -/
structure DetailAgrees (pre suf : List TaskEvent) (c : Nat) (row final : Task) : Prop where
  rowPre : rowAfter pre = some row
  rowAll : rowAfter (pre ++ suf) = some final
  detail : ∀ c', { suf.foldl applyEventToDetail (projectTaskDetail row pre c) with
    eventCursor := c' } = projectTaskDetail final (pre ++ suf) c'
  delivery : ∀ fed, Delivery c fed suf → fed.foldl applyEventToDetail (projectTaskDetail row pre c) =
    suf.foldl applyEventToDetail (projectTaskDetail row pre c)
  overlap : ∀ fed done, Delivery c fed done → done <+: suf → Agrees pre c row fed done

/-- **Client and server projections agree.** Any log of a task that satisfies
the grammar, split anywhere after its first event and read at any cursor
between the two parts. -/
theorem detail_agrees {id : TaskId} {pre suf : List TaskEvent} {c : Nat}
    (h : TaskLog id (pre ++ suf)) (hne : pre ≠ []) (hc : ∀ e ∈ suf, c < e.id.get) :
    ∃ row final, DetailAgrees pre suf c row final := by
  obtain ⟨row, hrow⟩ := row_of_taskLog h hne
  have hag := delivery_agrees hrow (delivery_self c suf) h.toTaskEvents hc
  obtain ⟨final, hfinal, heq⟩ := hag.detail
  refine ⟨row, final, hrow, hfinal, ?_, ?_, ?_⟩
  · intro c'
    rw [heq, projectTaskDetail_with final final (pre ++ suf) (cursorAfter c suf) c']
    simp
  · intro fed hd
    obtain ⟨final', hfinal', heq'⟩ := (delivery_agrees hrow hd h.toTaskEvents hc).detail
    rw [hfinal] at hfinal'
    cases hfinal'
    rw [heq, heq']
  · rintro fed done hd ⟨rest, rfl⟩
    rw [← List.append_assoc] at h
    exact delivery_agrees hrow hd h.toTaskEvents.left fun e he => hc e (List.mem_append_left rest he)

/-- A task queued, started, planned and completed. -/
def sampleTask (status : TaskStatus) (eventId : EventId) : Task :=
  { id := ⟨1⟩, clientRequestId := ⟨2⟩, repositoryId := ⟨3⟩, prompt := "p", status, attempt := 1,
    retryOf := none, createdAt := .epoch,
    startedAt := if status = .queued then none else some .epoch,
    finishedAt := if status.isRetryable then some .epoch else none, lastEventId := eventId,
    failure := none }

def sampleLog : List TaskEvent :=
  [.new .first ⟨1⟩ (.taskQueued (sampleTask .queued .first)) .epoch,
   .new ⟨2, by decide, by decide⟩ ⟨1⟩ (.taskStarted (sampleTask .running ⟨2, by decide, by decide⟩)) .epoch,
   .new ⟨4, by decide, by decide⟩ ⟨1⟩ (.planUpdated ⟨1, []⟩) .epoch,
   .new ⟨7, by decide, by decide⟩ ⟨1⟩ (.taskCompleted (sampleTask .completed ⟨7, by decide, by decide⟩)) .epoch]

theorem taskLog_sampleLog : TaskLog ⟨1⟩ sampleLog where
  owner := by decide
  increasing := by decide
  ok := by
    intro e he
    simp only [sampleLog, List.mem_cons, List.not_mem_nil, or_false] at he
    rcases he with rfl | rfl | rfl | rfl
    all_goals
      refine ⟨rfl, fun task ht => ?_⟩
      cases ht <;> exact ⟨⟨by decide, by decide⟩, by decide, by decide, by decide⟩
  word := ⟨[.taskStarted, .planUpdated], [.taskCompleted], by decide,
    .inr ⟨[.planUpdated], rfl, by decide⟩, .inr ⟨_, rfl, rfl⟩, fun h => by cases h⟩

theorem detail_agrees_sampleLog : TaskLog ⟨1⟩ (sampleLog.take 2 ++ sampleLog.drop 2) ∧
    ∃ row final, DetailAgrees (sampleLog.take 2) (sampleLog.drop 2) 3 row final :=
  ⟨taskLog_sampleLog, detail_agrees taskLog_sampleLog (by decide) (by decide)⟩

end CodingAgent.L5.Web
