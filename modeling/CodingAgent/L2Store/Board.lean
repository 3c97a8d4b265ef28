import CodingAgent.L2Store.Projection

/-!
# The board: what the writing operations do to the tasks

The abstract view that the components above the store reason with: for every
task the status and failure of its row (`verdict`), and its panel events in
order (`panel`). `Effect` says what one operation may reply and what the
board then is.

* `operation_effect`: every operation that succeeds on a database that
  reflects a log has the `Effect` of its reply.
* `Effect.started`, `Effect.settled`, `Effect.running`, `Effect.panel`: what no
  operation undoes, the only way a task becomes running, and the only
  operation that adds a panel event.
* `panel_unstarted`: a task that was never started has no panel event.
-/
namespace CodingAgent.L2.Store
open CodingAgent.L1.Domain

/-- The status and the failure of a row. -/
structure Verdict where
  status : TaskStatus
  failure : Option TaskFailure
  deriving DecidableEq, Repr

/-- The kind and the payload of a panel event. -/
structure PanelEntry where
  kind : TaskEventKind
  payload : PayloadJson
  deriving DecidableEq, Repr

structure Board where
  verdict : TaskId → Option Verdict
  panel : TaskId → List PanelEntry

namespace Board

def status (b : Board) (id : TaskId) : Option TaskStatus := (b.verdict id).map (·.status)

/-- The task's row gets this status and failure. -/
def set (b : Board) (id : TaskId) (v : Verdict) : Board :=
  { b with verdict := fun x => if x = id then some v else b.verdict x }

/-- The task gets one more panel event. -/
def push (b : Board) (id : TaskId) (entry : PanelEntry) : Board :=
  { b with panel := fun x => if x = id then b.panel x ++ [entry] else b.panel x }

def recoverVerdict (failure : TaskFailure) (v : Verdict) : Verdict :=
  if isIncomplete v.status then ⟨.interrupted, some failure⟩ else v

/-- Every queued or running task is interrupted. -/
def recover (b : Board) (failure : TaskFailure) : Board :=
  { b with verdict := fun id => (b.verdict id).map (recoverVerdict failure) }

/-- The task has a row and is not queued. -/
def Started (b : Board) (id : TaskId) : Prop :=
  ∃ status, b.status id = some status ∧ status ≠ .queued

/-- The task has a row with a terminal status. -/
def Settled (b : Board) (id : TaskId) : Prop :=
  ∃ status, b.status id = some status ∧ status.isRetryable = true

theorem set_verdict (b : Board) (id x : TaskId) (v : Verdict) :
    (b.set id v).verdict x = if x = id then some v else b.verdict x := rfl

theorem set_status (b : Board) (id x : TaskId) (v : Verdict) :
    (b.set id v).status x = if x = id then some v.status else b.status x := by
  unfold status
  rw [set_verdict]
  split <;> rfl

theorem push_panel (b : Board) (id x : TaskId) (entry : PanelEntry) :
    (b.push id entry).panel x = if x = id then b.panel x ++ [entry] else b.panel x := rfl

theorem recover_status (b : Board) (failure : TaskFailure) (id : TaskId) :
    (b.recover failure).status id =
      (b.status id).map fun s => if isIncomplete s then .interrupted else s := by
  show ((b.verdict id).map (recoverVerdict failure)).map _ = ((b.verdict id).map _).map _
  cases b.verdict id with
  | none => rfl
  | some v =>
    simp only [Option.map_some, recoverVerdict]
    split <;> rfl

theorem Settled.started {b : Board} {id : TaskId} (h : b.Settled id) : b.Started id := by
  obtain ⟨s, hs, hr⟩ := h
  exact ⟨s, hs, by rintro rfl; cases hr⟩

theorem Started.settled {b : Board} {id : TaskId} (h : b.Started id)
    (hr : b.status id ≠ some .running) : b.Settled id := by
  obtain ⟨s, hs, hq⟩ := h
  refine ⟨s, hs, ?_⟩
  cases s <;> simp_all [TaskStatus.isRetryable]

theorem Settled.not_running {b : Board} {id : TaskId} (h : b.Settled id) :
    b.status id ≠ some .running := by
  obtain ⟨s, hs, hr⟩ := h
  rw [hs]
  rintro ⟨⟩
  cases hr

end Board

/-- The board of a database. -/
def Db.board (db : Db) : Board where
  verdict id := (db.tasks.find? fun r => r.id = id).map fun r => ⟨r.status, r.failureJson⟩
  panel id := (db.events.filter fun r => r.taskId = id && r.kind.isPanel).map fun r =>
    ⟨r.kind, r.payloadJson⟩

/-! ## The board of a log -/

def PanelEntry.ofPayload (payload : TaskEventPayload) : PanelEntry :=
  ⟨payload.kind, payloadJson payload⟩

def boardOf (log : List TaskEvent) : Board where
  verdict id := (history.replay log id).map fun t => ⟨t.status, t.failure⟩
  panel id := ((history.streamOf log id).filter fun e => e.kind.isPanel).map fun e =>
    .ofPayload e.payload

theorem board_reflects {db : Db} {log : List TaskEvent} (h : Reflects db log) :
    db.board = boardOf log := by
  simp only [Db.board, boardOf, Board.mk.injEq]
  constructor
  · funext id
    rw [h.find, Option.map_map]
    rfl
  · funext id
    rw [h.events, List.filter_map, List.map_map, EventModel.streamOf, List.filter_filter]
    congr 2
    funext e
    exact Bool.and_comm ..

theorem boardOf_lifecycle {log : List TaskEvent} {e : TaskEvent} {t : Task}
    (ht : e.payload.task? = some t) :
    boardOf (log ++ [e]) = (boardOf log).set e.taskId ⟨t.status, t.failure⟩ := by
  have hk : e.kind.isPanel = false := by
    cases hp : e.kind.isPanel with
    | false => rfl
    | true => rw [(TaskEventPayload.task?_isNone_iff _).2 hp] at ht; cases ht
  simp only [boardOf, Board.set, Board.mk.injEq]
  constructor
  · funext id
    rw [EventModel.replay_snoc]
    by_cases hid : e.taskId = id
    · rw [if_pos (show history.stream e = id from hid), if_pos hid.symm]
      exact congrArg _ (applyEvent_task ht _)
    · rw [if_neg (show ¬ history.stream e = id from hid), if_neg (Ne.symm hid)]
  · funext id
    rw [EventModel.streamOf_snoc]
    split <;> simp [List.filter_append, hk]

theorem boardOf_panel {log : List TaskEvent} {e : TaskEvent} (h : e.kind.isPanel = true) :
    boardOf (log ++ [e]) = (boardOf log).push e.taskId (.ofPayload e.payload) := by
  have ht : e.payload.task? = none := (TaskEventPayload.task?_isNone_iff _).2 h
  simp only [boardOf, Board.push, Board.mk.injEq]
  constructor
  · funext id
    rw [EventModel.replay_snoc]
    split
    · show (applyEvent _ e).map _ = _
      rw [applyEvent, ht]
      cases history.replay log id <;> rfl
    · rfl
  · funext id
    rw [EventModel.streamOf_snoc]
    by_cases hid : e.taskId = id
    · rw [if_pos hid.symm, if_pos (show history.stream e = id from hid)]
      simp [List.filter_append, h]
    · rw [if_neg (Ne.symm hid), if_neg (show ¬ history.stream e = id from hid)]

/-- A task that was never started has no panel event. -/
theorem panel_unstarted {log : List TaskEvent} (h : history.Valid log) {id : TaskId}
    (hs : ¬ (boardOf log).Started id) : (boardOf log).panel id = [] := by
  show ((history.streamOf log id).filter _).map _ = []
  rcases valid_rowOf h id with ⟨hnil, -⟩ | ⟨t, ht, hr⟩
  · rw [hnil]; rfl
  · have hq : t.status = .queued := by
      by_contra hq
      refine hs ⟨t.status, ?_, hq⟩
      simp only [Board.status, boardOf, ht]
      rfl
    have hkinds := (hq ▸ hr.trace).of_queued
    rw [List.filter_eq_nil_iff.2, List.map_nil]
    intro e he
    have hk : e.kind ∈ [TaskEventKind.taskQueued] := hkinds ▸ List.mem_map_of_mem he
    rw [List.mem_singleton.1 hk]
    exact Bool.false_ne_true

/-! ## Effects -/

/-- What an operation replies to and does to the board. -/
inductive Effect (b : Board) : Operation → Reply → Board → Prop
  | createExisting {input : NewTask} {task : Task} :
    Effect b (.createTask input) (.create (.existing task)) b
  | created {input : NewTask} {task : Task} {eventId : EventId} : b.verdict task.id = none →
    Effect b (.createTask input) (.create (.created task eventId)) (b.set task.id ⟨.queued, none⟩)
  | retryExisting {sourceId : TaskId} {task : Task} :
    Effect b (.retryTask sourceId) (.retry (.existing task)) b
  | retried {sourceId : TaskId} {task : Task} {eventId : EventId} : b.verdict task.id = none →
    Effect b (.retryTask sourceId) (.retry (.created task eventId)) (b.set task.id ⟨.queued, none⟩)
  | conflict {id : TaskId} {expected : TaskStatus} {transition : TaskTransition} {current : Task} :
    current.id = id → b.status id = some current.status → current.status ≠ expected →
    Effect b (.transitionWithEvent id expected transition) (.transition (.conflict current)) b
  | applied {id : TaskId} {expected : TaskStatus} {transition : TaskTransition} {task : Task}
    {eventId : EventId} : b.status id = some expected →
    expected.canTransitionTo transition.next = true → task.id = id →
    task.status = transition.next →
    Effect b (.transitionWithEvent id expected transition) (.transition (.applied task eventId))
      (b.set id ⟨transition.next, transition.failure⟩)
  | notRunning {id : TaskId} {payload : TaskEventPayload} {current : Task} :
    b.status id = some current.status → current.status ≠ .running →
    Effect b (.appendRunningEvent id payload) (.append (.notRunning current)) b
  | appended {id : TaskId} {payload : TaskEventPayload} {eventId : EventId} :
    b.status id = some .running →
    Effect b (.appendRunningEvent id payload) (.append (.applied eventId))
      (b.push id (.ofPayload payload))
  | recovered {now : UtcTimestamp} {failure : TaskFailure} {out : RecoveryOutcome} :
    Effect b (.recoverIncomplete now failure) (.recovery out) (b.recover failure)

theorem status_boardOf {log : List TaskEvent} {id : TaskId} {t : Task}
    (h : history.replay log id = some t) : (boardOf log).status id = some t.status := by
  simp only [Board.status, boardOf, h]
  rfl

theorem board_row {db : Db} {log : List TaskEvent} (h : Reflects db log) {row : TaskRow}
    (hr : row ∈ db.tasks) : db.board.status row.id = some row.status := by
  obtain ⟨t, ht, heq⟩ := (h.rows row).1 hr
  rw [board_reflects h, status_boardOf ht, heq]
  rfl

theorem row_of_status {db : Db} {id : TaskId} {status : TaskStatus}
    (h : db.board.status id = some status) :
    ∃ row ∈ db.tasks, row.id = id ∧ row.status = status := by
  obtain ⟨v, hv, rfl⟩ := Option.map_eq_some_iff.1 h
  obtain ⟨row, hrow, rfl⟩ := Option.map_eq_some_iff.1 hv
  have hid := List.find?_some hrow
  simp only [decide_eq_true_eq] at hid
  exact ⟨row, List.mem_of_find?_eq_some hrow, hid, rfl⟩

theorem verdict_boardOf_none {log : List TaskEvent} {id : TaskId}
    (h : history.replay log id = none) : (boardOf log).verdict id = none := by
  simp only [boardOf, h]
  rfl

@[simp] theorem transitionTask_id (t : Task) (transition : TaskTransition) (now : UtcTimestamp)
    (eventId : EventId) : (transitionTask t transition now eventId).id = t.id := by
  cases transition <;> rfl

@[simp] theorem transitionTask_failure (t : Task) (transition : TaskTransition) (now : UtcTimestamp)
    (eventId : EventId) : (transitionTask t transition now eventId).failure = transition.failure := by
  cases transition <;> rfl

theorem transitionWithEvent_legal {db db' : Db} {env : Env} {id : TaskId} {expected : TaskStatus}
    {transition : TaskTransition} {out : TransitionOutcome}
    (hok : transitionWithEvent env id expected transition db = .ok (out, db')) :
    expected.canTransitionTo transition.next = true := by
  simp only [transitionWithEvent] at hok
  split at hok
  · cases hok
  · simp_all

/-- A queued row has no failure. -/
theorem queued_failure {log : List TaskEvent} (h : history.Valid log) {id : TaskId} {t : Task}
    (ht : history.replay log id = some t) (hq : t.status = .queued) : t.failure = none := by
  have hw := (valid_rowOf_some h ht).wellFormed.state
  simp only [Task.stateIsValid, hq, Bool.and_eq_true, Option.isNone_iff_eq_none] at hw
  exact hw.2

/-- The board after a queued row was inserted. -/
theorem board_created {db db' : Db} {log : List TaskEvent} {t : Task} {eventId : EventId}
    {now : UtcTimestamp} (h : Reflects db log) (hq : t.status = .queued)
    (hr : Reflects db' (log ++ [TaskEvent.new eventId t.id (.taskQueued t) now])) :
    db'.board = db.board.set t.id ⟨.queued, none⟩ := by
  have hself : history.replay (log ++ [TaskEvent.new eventId t.id (.taskQueued t) now]) t.id =
      some t := EventModel.replay_snoc_self _ _
  rw [board_reflects hr, board_reflects h, boardOf_lifecycle (t := t) rfl, hq,
    queued_failure hr.valid hself hq]
  rfl

theorem board_recovered {db db' : Db} {log : List TaskEvent} {env : Env} {now : UtcTimestamp}
    {failure : TaskFailure} {out : RecoveryOutcome} (h : Reflects db log)
    (hok : recoverIncomplete env now failure db = .ok (out, db')) :
    db'.board = db.board.recover failure := by
  obtain ⟨new, hr, hfinal, hinc, hdone, -⟩ := recoverIncomplete_reflects h hok
  have hkind : ∀ e ∈ new, e.kind.isPanel = false := by
    intro e he
    obtain ⟨t, hp, -⟩ := hfinal e he
    rw [TaskEvent.kind, hp]
    rfl
  rw [board_reflects hr, board_reflects h]
  simp only [boardOf, Board.recover, Board.mk.injEq]
  constructor
  · funext id
    by_cases hex : ∃ e ∈ new, e.taskId = id
    · obtain ⟨e, he, rfl⟩ := hex
      obtain ⟨t, -, hst, hf, hrow⟩ := hfinal e he
      obtain ⟨u, hu, hui, -⟩ := hinc e he
      rw [hrow, hu]
      simp [Board.recoverVerdict, hui, hst, hf]
    · have hsame : history.replay (log ++ new) id = history.replay log id := by
        have hstream : history.streamOf new id = [] :=
          List.filter_eq_nil_iff.2 fun e he heq => hex ⟨e, he, of_decide_eq_true heq⟩
        rw [EventModel.replay_append, hstream]
        rfl
      rw [hsame]
      cases ht : history.replay log id with
      | none => rfl
      | some t => simp [Board.recoverVerdict, hdone id t (hsame.trans ht)]
  · funext id
    have hnone : (history.streamOf new id).filter (fun e => e.kind.isPanel) = [] := by
      refine List.filter_eq_nil_iff.2 fun e he => ?_
      rw [hkind e (EventModel.mem_streamOf.1 he).1]
      exact Bool.false_ne_true
    rw [EventModel.streamOf_append, List.filter_append, hnone, List.append_nil]

/-- **Operations refine their effects.** -/
theorem operation_effect {db db' : Db} {log : List TaskEvent} {env : Env} {op : Operation}
    {reply : Reply} (h : Reflects db log) (hok : op.tx env db = .ok (reply, db')) :
    Effect db.board op reply db'.board := by
  cases op with
  | createTask input =>
    obtain ⟨out, hout, rfl⟩ := tx_map_ok.1 hok
    rcases createTask_reflects h hout with ⟨t, rfl, hdb, -⟩ | ⟨t, eventId, now, rfl, hn, hq, hr⟩
    · rw [show db' = db from hdb]
      exact .createExisting
    · rw [board_created h hq hr]
      exact .created (board_reflects h ▸ verdict_boardOf_none hn)
  | retryTask sourceId =>
    obtain ⟨out, hout, rfl⟩ := tx_map_ok.1 hok
    rcases retryTask_reflects h hout with ⟨t, rfl, hdb, -⟩ | ⟨t, eventId, now, rfl, hn, hq, hr⟩
    · rw [show db' = db from hdb]
      exact .retryExisting
    · rw [board_created h hq hr]
      exact .retried (board_reflects h ▸ verdict_boardOf_none hn)
  | transitionWithEvent id expected transition =>
    obtain ⟨out, hout, rfl⟩ := tx_map_ok.1 hok
    rcases transitionWithEvent_reflects h hout with ⟨t, rfl, hdb, ht, hne⟩ |
      ⟨t, eventId, now, payload, rfl, ht, hst, hp, hr⟩
    · rw [show db' = db from hdb]
      exact .conflict (h.replay_id ht) (board_reflects h ▸ status_boardOf ht) hne
    · obtain ⟨-, htask, -⟩ := lifecyclePayload_ok hp
      have hboard : db'.board = db.board.set id ⟨transition.next, transition.failure⟩ := by
        rw [board_reflects hr, board_reflects h, boardOf_lifecycle htask, transitionTask_status,
          transitionTask_failure]
        rfl
      rw [hboard]
      refine .applied (board_reflects h ▸ hst ▸ status_boardOf ht) (transitionWithEvent_legal hout)
        ?_ (transitionTask_status ..)
      rw [transitionTask_id]
      exact h.replay_id ht
  | appendRunningEvent id payload =>
    obtain ⟨out, hout, rfl⟩ := tx_map_ok.1 hok
    obtain ⟨hpan, hcases⟩ := appendRunningEvent_reflects h hout
    rcases hcases with ⟨t, rfl, hdb, ht, hne⟩ | ⟨t, eventId, now, rfl, ht, hst, hr⟩
    · rw [show db' = db from hdb]
      exact .notRunning (board_reflects h ▸ status_boardOf ht) hne
    · have hboard : db'.board = db.board.push id (.ofPayload payload) := by
        rw [board_reflects hr, board_reflects h]
        exact boardOf_panel hpan
      rw [hboard]
      exact .appended (board_reflects h ▸ hst ▸ status_boardOf ht)
  | recoverIncomplete now failure =>
    obtain ⟨out, hout, rfl⟩ := tx_map_ok.1 hok
    rw [board_recovered h hout]
    exact .recovered

/-! ## What no operation undoes -/

namespace Effect

variable {b b' : Board} {op : Operation} {reply : Reply}

/-- A status changes only along the lifecycle: a new row is queued, and
otherwise the old status was queued or running. -/
theorem status_cases (h : Effect b op reply b') (id : TaskId) :
    b'.status id = b.status id ∨ (b.status id = none ∧ b'.status id = some .queued) ∨
      (b.status id = some .queued ∧ b'.status id = some .running ∧
        op = .transitionWithEvent id .queued .running) ∨
      ((b.status id = some .queued ∨ b.status id = some .running) ∧ b'.Settled id) := by
  have hnew : ∀ {x : TaskId}, b.verdict x = none →
      (b.set x ⟨.queued, none⟩).status id = b.status id ∨
        (b.status id = none ∧ (b.set x ⟨.queued, none⟩).status id = some .queued) := by
    intro x hx
    rw [Board.set_status]
    split
    · rename_i hid
      exact .inr ⟨by rw [hid, Board.status, hx]; rfl, rfl⟩
    · exact .inl rfl
  cases h with
  | createExisting => exact .inl rfl
  | retryExisting => exact .inl rfl
  | conflict => exact .inl rfl
  | notRunning => exact .inl rfl
  | appended => exact .inl rfl
  | created hn => exact (hnew hn).imp_right .inl
  | retried hn => exact (hnew hn).imp_right .inl
  | @applied x expected transition task eventId hst hc hid hnext =>
    by_cases hx : id = x
    · subst hx
      have hset : (b.set id ⟨transition.next, transition.failure⟩).status id =
          some transition.next := by rw [Board.set_status, if_pos rfl]
      rcases TaskStatus.canTransitionTo_cases hc with ⟨rfl, hrun⟩ | hterm
      · have htr : transition = .running := by cases transition <;> first | rfl | cases hrun
        subst htr
        exact .inr (.inr (.inl ⟨hst, hset, rfl⟩))
      · refine .inr (.inr (.inr ⟨?_, _, hset, hterm⟩))
        rcases TaskStatus.canTransitionTo_from hc with rfl | rfl
        · exact .inl hst
        · exact .inr hst
    · exact .inl (by rw [Board.set_status, if_neg hx])
  | @recovered now failure out =>
    rw [Board.recover_status]
    cases hs : b.status id with
    | none => exact .inl rfl
    | some s =>
      have hrec := Board.recover_status b failure id
      rw [hs] at hrec
      cases s with
      | queued => exact .inr (.inr (.inr ⟨.inl rfl, _, hrec, rfl⟩))
      | running => exact .inr (.inr (.inr ⟨.inr rfl, _, hrec, rfl⟩))
      | completed => exact .inl rfl
      | failed => exact .inl rfl
      | cancelled => exact .inl rfl
      | interrupted => exact .inl rfl

theorem started (h : Effect b op reply b') {id : TaskId} (hs : b.Started id) : b'.Started id := by
  obtain ⟨s, hst, hq⟩ := hs
  rcases h.status_cases id with he | ⟨hn, -⟩ | ⟨-, hr, -⟩ | ⟨-, hset⟩
  · exact ⟨s, he.trans hst, hq⟩
  · rw [hst] at hn; cases hn
  · exact ⟨_, hr, by decide⟩
  · exact hset.started

theorem not_running (h : Effect b op reply b') {id : TaskId} (hr : b.status id ≠ some .running)
    (hop : op ≠ .transitionWithEvent id .queued .running) : b'.status id ≠ some .running := by
  rcases h.status_cases id with he | ⟨-, hq⟩ | ⟨-, -, hop'⟩ | ⟨-, hset⟩
  · rw [he]; exact hr
  · rw [hq]; decide
  · exact absurd hop' hop
  · exact hset.not_running

/-- A terminal row keeps its status and failure, and its panel events. -/
theorem settled (h : Effect b op reply b') {id : TaskId} (hs : b.Settled id) :
    b'.verdict id = b.verdict id ∧ b'.panel id = b.panel id := by
  obtain ⟨s, hst, hterm⟩ := hs
  have hne : b.verdict id ≠ none := by
    intro hn
    rw [Board.status, hn] at hst
    cases hst
  cases h with
  | createExisting => exact ⟨rfl, rfl⟩
  | retryExisting => exact ⟨rfl, rfl⟩
  | conflict => exact ⟨rfl, rfl⟩
  | notRunning => exact ⟨rfl, rfl⟩
  | created hn =>
    refine ⟨?_, rfl⟩
    rw [Board.set_verdict, if_neg]
    rintro rfl
    exact hne hn
  | retried hn =>
    refine ⟨?_, rfl⟩
    rw [Board.set_verdict, if_neg]
    rintro rfl
    exact hne hn
  | applied hx hc =>
    refine ⟨?_, rfl⟩
    rw [Board.set_verdict, if_neg]
    rintro rfl
    rw [hx] at hst
    cases hst
    rcases TaskStatus.canTransitionTo_from hc with rfl | rfl <;> cases hterm
  | appended hx =>
    refine ⟨rfl, ?_⟩
    rw [Board.push_panel, if_neg]
    rintro rfl
    rw [hx] at hst
    cases hst
    cases hterm
  | @recovered now failure out =>
    refine ⟨?_, rfl⟩
    obtain ⟨v, hv, rfl⟩ := Option.map_eq_some_iff.1 hst
    show (b.verdict id).map _ = _
    rw [hv]
    have : isIncomplete v.status = false := by
      cases hs : v.status <;> rw [hs] at hterm <;> first | rfl | cases hterm
    simp [Board.recoverVerdict, this]

/-- Only an applied append adds a panel event. -/
theorem panel (h : Effect b op reply b') (id : TaskId) :
    b'.panel id = b.panel id ∨ ∃ payload eventId, op = .appendRunningEvent id payload ∧
      reply = .append (.applied eventId) ∧ b'.panel id = b.panel id ++ [.ofPayload payload] := by
  cases h with
  | @appended x payload eventId hx =>
    by_cases hid : id = x
    · subst hid
      exact .inr ⟨payload, eventId, rfl, rfl, by rw [Board.push_panel, if_pos rfl]⟩
    · exact .inl (by rw [Board.push_panel, if_neg hid])
  | _ => exact .inl rfl

end Effect

end CodingAgent.L2.Store
