import CodingAgent.L2Store.Contract
import CodingAgent.L4App.DegradedRecovery

/-!
# Cancelling a task (`coding-agent-app/src/task_manager.rs:736-796`)

The turn of a cancel, from its read of the task to the reply, with the rest of
the primary going on beside it: handlers submit and leave, the writer executes
what they have sent, runners act, a shutdown may freeze the manager.

* `SameTask`: the row of a task and its events are as they were. Only the
  manager changes a task that is there (`creation_same`).
* `Aside`: what a step of another component leaves alone.
* `CancelPoint`: what is known at each point of the turn. The row does not
  change between the read and the write, so the write is applied.
* `cancel_contract`: the reply, the row, the events and the tokens, by what the
  task was when it was read.
-/
namespace CodingAgent.L4.App
open CodingAgent.L1.Domain CodingAgent.L2.Store

/-! ## One task -/

structure SameTask (db db' : Db) (id : TaskId) : Prop where
  row : ∀ row, row.id = id → (row ∈ db'.tasks ↔ row ∈ db.tasks)
  events : db'.eventsOf id = db.eventsOf id

theorem SameTask.refl (db : Db) (id : TaskId) : SameTask db db id := ⟨fun _ _ => Iff.rfl, rfl⟩

theorem SameTask.trans {db db' db'' : Db} {id : TaskId} (h : SameTask db db' id)
    (h' : SameTask db' db'' id) : SameTask db db'' id :=
  ⟨fun row hid => (h'.row row hid).trans (h.row row hid), h'.events.trans h.events⟩

theorem SameTask.status {db db' : Db} {log log' : List TaskEvent} (hr : Reflects db log)
    (hr' : Reflects db' log') {id : TaskId} (h : SameTask db db' id) :
    db'.board.status id = db.board.status id := by
  cases hst : db.board.status id with
  | some status =>
    obtain ⟨row, hrow, rfl, rfl⟩ := row_of_status hst
    exact board_row hr' ((h.row row rfl).2 hrow)
  | none =>
    cases hst' : db'.board.status id with
    | none => rfl
    | some status =>
      obtain ⟨row, hrow, rfl, rfl⟩ := row_of_status hst'
      rw [board_row hr ((h.row row rfl).1 hrow)] at hst
      cases hst

/-- One event of another task. -/
theorem sameTask_snoc {db db' : Db} {log : List TaskEvent} {e : TaskEvent} (h : Reflects db log)
    (h' : Reflects db' (log ++ [e])) {id : TaskId} (hne : e.taskId ≠ id) : SameTask db db' id where
  row := by
    rintro row rfl
    rw [h'.rows, h.rows, replay_snoc_ne hne]
  events := by
    rw [eventsOf_reflects h', eventsOf_reflects h, EventModel.streamOf_snoc,
      if_neg (show ¬history.stream e = id from hne)]

theorem sameTask_reflects {db db' : Db} {log : List TaskEvent} (h : Reflects db log)
    (h' : Reflects db' log) (id : TaskId) : SameTask db db' id :=
  ⟨fun row _ => by rw [h'.rows, h.rows], by rw [eventsOf_reflects h', eventsOf_reflects h]⟩

/-- What handlers submit changes no task that is there. -/
theorem creation_same {operation : StoreWriterOperation} {env : Env} {repositoryId : RepositoryId}
    {fails : Bool} {db db' : Db} {outcome : Option StoreWriterOperationOutcome}
    {log : List TaskEvent} (hop : operation.IsCreation) (h : Reflects db log)
    (hx : operation.execute env repositoryId fails db = (outcome, db')) {row : TaskRow}
    (hrow : row ∈ db.tasks) : SameTask db db' row.id := by
  have hne : ∀ {t : Task}, history.replay log t.id = none → t.id ≠ row.id := by
    intro t hnone heq
    obtain ⟨u, hu, -⟩ := (h.rows row).1 hrow
    rw [← heq, hnone] at hu
    cases hu
  cases operation with
  | registerRepository input =>
    simp only [StoreWriterOperation.execute] at hx
    split at hx
    · cases hx
      exact .refl _ _
    · split at hx
      · next hok =>
        obtain ⟨repositories, rfl⟩ := registerRepository_frame hok
        cases hx
        exact sameTask_reflects h (h.repositories repositories) _
      · cases hx
        exact .refl _ _
  | task operation =>
    simp only [StoreWriterOperation.execute, Call.run] at hx
    cases fails with
    | true =>
      cases hx
      exact .refl _ _
    | false =>
      cases hok : operation.tx env db with
      | error error =>
        simp only [hok] at hx
        cases hx
        exact .refl _ _
      | ok result =>
        obtain ⟨reply, db''⟩ := result
        simp only [hok] at hx
        cases hx
        cases operation with
        | createTask input =>
          obtain ⟨out, hout, -⟩ := tx_map_ok.1 hok
          obtain ⟨t, -, rfl, -⟩ | ⟨t, eventId, now, -, hnone, -, hr⟩ := createTask_reflects h hout
          · exact .refl _ _
          · exact sameTask_snoc h hr (hne hnone)
        | retryTask sourceId =>
          obtain ⟨out, hout, -⟩ := tx_map_ok.1 hok
          obtain ⟨t, -, rfl, -⟩ | ⟨t, eventId, now, -, hnone, -, hr⟩ := retryTask_reflects h hout
          · exact .refl _ _
          · exact sameTask_snoc h hr (hne hnone)
        | transitionWithEvent | appendRunningEvent | recoverIncomplete => exact hop.elim

/-- A task that is cancelled: its row, and one event. -/
structure CancelledTask (db db' : Db) (task : Task) : Prop where
  status : task.status = .cancelled
  row : TaskRow.ofTask task ∈ db'.tasks
  event : ∃ r, db'.eventsOf task.id = db.eventsOf task.id ++ [r] ∧ r.kind = .taskCancelled

/-- The cancel of a queued task, when its write does not fail. -/
theorem cancel_write {env : Env} {repositoryId : RepositoryId} {fails : Bool} {db db' : Db}
    {outcome : Option StoreWriterOperationOutcome} {log : List TaskEvent} {id : TaskId}
    (h : Reflects db log) (hst : db.board.status id = some .queued)
    (hx : (StoreWriterOperation.task (.transitionWithEvent id .queued .cancelled)).execute env
      repositoryId fails db = (outcome, db')) :
    (outcome = none ∧ db' = db) ∨ ∃ task eventId,
      outcome = some (.task (.transition (.applied task eventId))) ∧ task.id = id ∧
      CancelledTask db db' task ∧ ∀ row ∈ db.tasks, row.id ≠ id → SameTask db db' row.id := by
  simp only [StoreWriterOperation.execute, Call.run] at hx
  cases fails with
  | true =>
    cases hx
    exact .inl ⟨rfl, rfl⟩
  | false =>
    cases hok : (Operation.transitionWithEvent id .queued .cancelled).tx env db with
    | error error =>
      simp only [hok] at hx
      cases hx
      exact .inl ⟨rfl, rfl⟩
    | ok result =>
      obtain ⟨reply, db''⟩ := result
      simp only [hok] at hx
      cases hx
      obtain ⟨out, hout, rfl⟩ := tx_map_ok.1 hok
      obtain ⟨t, -, -, ht, hne⟩ | ⟨t, eventId, now, payload, rfl, ht, -, hp, hr⟩ :=
        transitionWithEvent_reflects h hout
      · rw [board_reflects h, status_boardOf ht] at hst
        exact absurd (Option.some.inj hst) hne
      · obtain ⟨hkind, htask, -⟩ := lifecyclePayload_ok hp
        have hid : (transitionTask t .cancelled now eventId).id = id := by
          rw [transitionTask_id]
          exact h.replay_id ht
        have hself : history.replay (log ++ [TaskEvent.new eventId id payload now]) id =
            some (transitionTask t .cancelled now eventId) :=
          (EventModel.replay_snoc_self (m := history) log
            (TaskEvent.new eventId id payload now)).trans (applyEvent_task htask _)
        refine .inr ⟨_, eventId, rfl, hid, ⟨transitionTask_status .., hr.mem_of_replay hself,
          EventRow.ofEvent (TaskEvent.new eventId id payload now), ?_, hkind⟩,
          fun row _ hne => sameTask_snoc h hr (Ne.symm hne)⟩
        rw [hid, eventsOf_reflects hr, eventsOf_reflects h, EventModel.streamOf_snoc,
          if_pos (show history.stream _ = id from rfl), List.map_append]
        rfl

/-! ## Beside the turn -/

variable {s s' : Primary} {l : Label}

/-- A step of another component, while a cancel has its turn. -/
structure Aside (s s' : Primary) : Prop where
  manager : s'.manager = s.manager
  rows : ∀ row ∈ s.db.tasks, SameTask s.db s'.db row.id
  accepted : s'.accepted = s.accepted
  replies : s'.cancelReplies = s.cancelReplies
  tokens : s'.control.frozen = false → s.control.frozen = false ∧ s'.cancelled = s.cancelled
  grows : ∀ id, s.cancelled id = true → s'.cancelled id = true

theorem Aside.of (hm : s'.manager = s.manager) (hdb : s'.db = s.db)
    (ha : s'.accepted = s.accepted) (hr : s'.cancelReplies = s.cancelReplies)
    (hc : s'.control.frozen = s.control.frozen) (ht : s'.cancelled = s.cancelled) : Aside s s' :=
  ⟨hm, fun _ _ => hdb ▸ .refl _ _, ha, hr, fun hf => ⟨hc ▸ hf, ht⟩, fun _ hid => ht ▸ hid⟩

/-- The manager's own steps in the turn, and that of the writer for it. -/
inductive Turn (s : Primary) : Label → Prop
  | read (ok : Bool) : Turn s (.read ok)
  | send : Turn s .send
  | resume : Turn s .resume
  | write {env : Env} {repositoryId : RepositoryId} {fails : Bool}
    {operation : StoreWriterOperation} {writer : List WriteCommand} :
    s.writer = ⟨operation, .manager⟩ :: writer → Turn s (.write env repositoryId fails)

theorem aside_write {env : Env} {repositoryId : RepositoryId} {fails : Bool}
    (hs : s.writeStep env repositoryId fails = some s') (hstore : ∃ log, Reflects s.db log)
    (hl : Linked s.writer s.manager.pc) (hq : Queued s.writer none) :
    Turn s (.write env repositoryId fails) ∨ Aside s s' := by
  unfold Primary.writeStep at hs
  cases hw : s.writer with
  | nil =>
    rw [hw] at hs
    cases hs
  | cons command writer =>
    obtain ⟨operation, origin⟩ := command
    rw [hw] at hs hl hq
    cases origin with
    | manager => exact .inl (.write hw)
    | coordinator => cases (hq.head).1
    | handler n =>
      obtain ⟨log, hlog⟩ := hstore
      cases hx : operation.execute env repositoryId fails s.db with
      | mk outcome db =>
        simp only [hx] at hs
        cases hs
        exact .inr ⟨rfl, fun row hrow => creation_same (hl.handler _ List.mem_cons_self n rfl) hlog
          hx hrow, rfl, rfl, fun hf => ⟨hf, rfl⟩, fun _ => id⟩

theorem aside_shutdown (hs : s.shutdownStep = some s') (hstop : Stops s.control s.shutdown) :
    Aside s s' := by
  unfold Primary.shutdownStep at hs
  split at hs
  · split at hs
    · cases hs
      exact .of rfl rfl rfl rfl rfl rfl
    · cases hs
  · cases hs
    exact .of rfl rfl rfl rfl rfl rfl
  · cases hs
    exact .of rfl rfl rfl rfl rfl rfl
  · cases hs
    exact .of rfl rfl rfl rfl rfl rfl
  · cases hs
    exact .of rfl rfl rfl rfl rfl rfl
  · cases hs
    exact ⟨rfl, fun _ _ => .refl _ _, rfl, rfl, nofun, fun _ => id⟩
  · cases hs
    exact .of rfl rfl rfl rfl rfl rfl
  · next hpc =>
    -- a token is cancelled only after the freeze
    have hf := hstop.stops (by rw [hpc]; rfl)
    cases hs
    exact ⟨rfl, fun _ _ => .refl _ _, rfl, rfl, fun hn => absurd (hf.symm.trans hn) nofun,
      fun _ => put_true⟩
  · cases hs
    exact .of rfl rfl rfl rfl rfl rfl
  · cases hs
    exact .of rfl rfl rfl rfl rfl rfl
  all_goals cases hs

theorem aside_handler {h : Nat} (hs : s.handlerStep h = some s') : Aside s s' := by
  unfold Primary.handlerStep at hs
  split at hs
  · split at hs
    all_goals
      cases hs
      exact .of rfl rfl rfl rfl rfl rfl
  all_goals
    cases hs
    try exact .of rfl rfl rfl rfl rfl rfl

theorem aside_step (hs : next s l = some s') (hc : s.manager.pc.cancelling = true)
    (hstore : ∃ log, Reflects s.db log) (hl : Linked s.writer s.manager.pc)
    (hq : Queued s.writer none) (hco : s.coordinator = none)
    (hstop : Stops s.control s.shutdown) : Turn s l ∨ Aside s s' := by
  cases l with
  | read ok => exact .inl (.read ok)
  | send => exact .inl .send
  | resume => exact .inl .resume
  | write env repositoryId fails => exact aside_write hs hstore hl hq
  | handler h => exact .inr (aside_handler (h := h) hs)
  | shutdown => exact .inr (aside_shutdown hs hstop)
  | enter request =>
    simp only [next] at hs
    split at hs
    · cases hs
      exact .inr (.of rfl rfl rfl rfl rfl rfl)
    · cases hs
  | drop h =>
    simp only [next, Primary.dropHandler] at hs
    split at hs <;> cases hs
    exact .inr (.of rfl rfl rfl rfl rfl rfl)
  | requestQuit | startShutdown | forceCleanup =>
    simp only [next] at hs
    split at hs <;> cases hs
    exact .inr (.of rfl rfl rfl rfl rfl rfl)
  | receive now =>
    simp only [next, Primary.receiveStep] at hs
    split at hs
    · next hpc _ =>
      rw [hpc] at hc
      cases hc
    · cases hs
  | tick | endTurn =>
    simp only [next, Primary.tickStep, Primary.endTurnStep] at hs
    split at hs
    · next hpc =>
      rw [hpc] at hc
      cases hc
    · cases hs
  | claim senderOpen =>
    simp only [next, Primary.claimStep] at hs
    split at hs
    case h_5 => cases hs
    all_goals
      next hpc =>
      rw [hpc] at hc
      cases hc
  | runner taskId action =>
    simp only [next, Primary.runnerStep] at hs
    split at hs
    · split at hs <;> cases hs
      exact .inr (.of rfl rfl rfl rfl rfl rfl)
    · cases hs
  | report taskId =>
    simp only [next, Primary.reportStep] at hs
    split at hs
    · split at hs
      all_goals
        cases hs
        try exact .inr (.of rfl rfl rfl rfl rfl rfl)
    · cases hs
  | stray taskId event =>
    simp only [next, Primary.strayStep] at hs
    split at hs <;> cases hs
    exact .inr (.of rfl rfl rfl rfl rfl rfl)
  | coordinator now ok =>
    simp only [next, Primary.coordinatorStep, hco] at hs
    cases hs
  | shutdownTimeout =>
    simp only [next, Primary.shutdownTimeoutStep] at hs
    split at hs
    all_goals
      cases hs
      try exact .inr (.of rfl rfl rfl rfl rfl rfl)
  | shutdownPanic =>
    simp only [next, Primary.shutdownPanicStep] at hs
    split at hs
    all_goals
      cases hs
      try exact .inr (.of rfl rfl rfl rfl rfl rfl)

theorem Aside.refl (s : Primary) : Aside s s := .of rfl rfl rfl rfl rfl rfl

theorem Aside.trans {s'' : Primary} (h : Aside s s') (h' : Aside s' s'') : Aside s s'' where
  manager := h'.manager.trans h.manager
  rows row hrow :=
    (h.rows row hrow).trans (h'.rows row (((h.rows row hrow).row row rfl).2 hrow))
  accepted := h'.accepted.trans h.accepted
  replies := h'.replies.trans h.replies
  tokens hf := by
    obtain ⟨hf', ht'⟩ := h'.tokens hf
    obtain ⟨hf, ht⟩ := h.tokens hf'
    exact ⟨hf, ht'.trans ht⟩
  grows id hid := h'.grows id (h.grows id hid)

/-! ## The points of the turn -/

/-- What the turn keeps since the read; `token` once it has cancelled that of
its task. -/
structure TurnKept (before : Primary) (taskId : TaskId) (token : Bool) (s : Primary) : Prop where
  others : ∀ row ∈ before.db.tasks, row.id ≠ taskId → SameTask before.db s.db row.id
  accepted : s.accepted = before.accepted ++ if token then [taskId] else []
  tokens : s.control.frozen = false →
    s.cancelled = if token then put before.cancelled taskId true else before.cancelled
  own : token = true → s.cancelled taskId = true
  replies : s.cancelReplies = before.cancelReplies

theorem TurnKept.aside {before : Primary} {taskId : TaskId} {token : Bool}
    (h : TurnKept before taskId token s) (ha : Aside s s') : TurnKept before taskId token s' where
  others row hrow hne := by
    have hsame := h.others row hrow hne
    exact hsame.trans (ha.rows row ((hsame.row row rfl).2 hrow))
  accepted := ha.accepted.trans h.accepted
  tokens hf := by
    obtain ⟨hf, ht⟩ := ha.tokens hf
    exact ht.trans (h.tokens hf)
  own htok := ha.grows taskId (h.own htok)
  replies := ha.replies.trans h.replies

/-- A task that was there is as it was, after a step of another component. -/
theorem SameTask.aside {before : Primary} {taskId : TaskId} {status : TaskStatus}
    (hst : before.db.board.status taskId = some status)
    (h : SameTask before.db s.db taskId) (ha : Aside s s') : SameTask before.db s'.db taskId := by
  obtain ⟨row, hrow, rfl, -⟩ := row_of_status hst
  exact h.trans (ha.rows row ((h.row row rfl).2 hrow))

theorem CancelledTask.aside {db : Db} {task : Task} (h : CancelledTask db s.db task)
    (ha : Aside s s') : CancelledTask db s'.db task := by
  have hsame := ha.rows _ h.row
  refine ⟨h.status, (hsame.row _ rfl).2 h.row, ?_⟩
  have hevents : s'.db.eventsOf task.id = s.db.eventsOf task.id := hsame.events
  rw [hevents]
  exact h.event

/-- Where a cancel may be after its read, and what it has done by then. -/
inductive CancelPoint (before : Primary) (taskId : TaskId) (handler : Nat) (s : Primary) : Prop
  | writing {stage : WriteStage} : s.manager.pc = .write (.cancel taskId handler) stage →
    stage = .sending ∨ stage = .waiting → before.db.board.status taskId = some .queued →
    SameTask before.db s.db taskId → TurnKept before taskId false s → CancelPoint before taskId handler s
  | written {task : Task} {eventId : EventId} :
    s.manager.pc =
      .write (.cancel taskId handler) (.replied (some (.transition (.applied task eventId)))) →
    before.db.board.status taskId = some .queued → task.id = taskId →
    CancelledTask before.db s.db task → TurnKept before taskId false s →
    CancelPoint before taskId handler s
  | reload : s.manager.pc = .cancelReload taskId handler →
    before.db.board.status taskId = some .running → SameTask before.db s.db taskId →
    TurnKept before taskId true s → CancelPoint before taskId handler s

theorem CancelPoint.cancelling {before : Primary} {taskId : TaskId} {handler : Nat}
    (h : CancelPoint before taskId handler s) : s.manager.pc.cancelling = true := by
  cases h with
  | writing hpc | written hpc | reload hpc => rw [hpc]; rfl

theorem CancelPoint.aside {before : Primary} {taskId : TaskId} {handler : Nat}
    (h : CancelPoint before taskId handler s) (ha : Aside s s') :
    CancelPoint before taskId handler s' := by
  cases h with
  | writing hpc hstage hst hsame hkept =>
    exact .writing (by rw [ha.manager, hpc]) hstage hst (hsame.aside hst ha) (hkept.aside ha)
  | written hpc hst hid htask hkept =>
    exact .written (by rw [ha.manager, hpc]) hst hid (htask.aside ha) (hkept.aside ha)
  | reload hpc hst hsame hkept =>
    exact .reload (by rw [ha.manager, hpc]) hst (hsame.aside hst ha) (hkept.aside ha)

/-- What a cancel answers, by what the task was when it was read, and what it
leaves. -/
structure CancelContract (before after : Primary) (taskId : TaskId) (reply : CancelReply) :
    Prop where
  cancelled : (∃ task, reply = .ok (.cancelled task)) ↔
    before.db.board.status taskId = some .queued ∨ before.db.board.status taskId = some .cancelled
  accepted : (∃ task, reply = .ok (.accepted task)) ↔
    before.db.board.status taskId = some .running
  notCancellable : (∃ task, reply = .error (.taskNotCancellable task)) ↔
    before.db.board.status taskId = some .completed ∨
      before.db.board.status taskId = some .failed ∨
      before.db.board.status taskId = some .interrupted
  notFound : reply = .error .taskNotFound ↔ before.db.board.status taskId = none
  /-- the task of a reply is the row the turn leaves -/
  task : ∀ task, reply = .ok (.cancelled task) ∨ reply = .ok (.accepted task) ∨
    reply = .error (.taskNotCancellable task) →
      task.id = taskId ∧ TaskRow.ofTask task ∈ after.db.tasks
  running : ∀ task, reply = .ok (.accepted task) → task.status = .running
  applied : before.db.board.status taskId = some .queued →
    ∃ task, reply = .ok (.cancelled task) ∧ CancelledTask before.db after.db task
  unchanged : before.db.board.status taskId ≠ some .queued → SameTask before.db after.db taskId
  others : ∀ row ∈ before.db.tasks, row.id ≠ taskId → SameTask before.db after.db row.id
  token : before.db.board.status taskId = some .running → after.cancelled taskId = true
  tokens : after.control.frozen = false → after.cancelled =
    if before.db.board.status taskId = some .running then put before.cancelled taskId true
    else before.cancelled
  acceptedIds : after.accepted = before.accepted ++
    if before.db.board.status taskId = some .running then [taskId] else []

/-- The turn is over. -/
structure Answered (before : Primary) (taskId : TaskId) (s : Primary) : Prop where
  turnEnd : s.manager.pc = .turnEnd
  reply : ∃ reply, s.cancelReplies = before.cancelReplies ++ [(taskId, reply)] ∧
    CancelContract before s taskId reply

/-- `load_task`, where it reads. -/
theorem loadTask_row (taskId : TaskId) (hstore : ∃ log, Reflects s.db log) :
    (s.db.board.status taskId = none ∧ s.loadTask taskId true = .error .taskNotFound) ∨
      ∃ task, s.loadTask taskId true = .ok task ∧ task.id = taskId ∧
        TaskRow.ofTask task ∈ s.db.tasks ∧ s.db.board.status taskId = some task.status := by
  obtain ⟨log, hlog⟩ := hstore
  have hread := taskDetail_reflects hlog taskId
  cases hd : detailAt log taskId (latest log) with
  | none =>
    rw [hd] at hread
    refine .inl ⟨?_, by simp only [Primary.loadTask, hread]⟩
    rw [detailAt, rowAt_latest, Option.map_eq_none_iff] at hd
    cases hst : s.db.board.status taskId with
    | none => rfl
    | some status =>
      obtain ⟨row, hrow, rfl, -⟩ := row_of_status hst
      obtain ⟨t, ht, -⟩ := (hlog.rows row).1 hrow
      rw [hd] at ht
      cases ht
  | some detail =>
    rw [hd] at hread
    obtain ⟨ht, hid⟩ := taskDetail_row hlog hread
    refine .inr ⟨detail.task, by simp only [Primary.loadTask, hread], hid,
      hlog.mem_of_replay ht, ?_⟩
    rw [board_reflects hlog, status_boardOf ht]

/-! ## Answers -/

section
variable {before : Primary} {taskId : TaskId} {handler : Nat}

theorem Answered.of {token : Bool} {reply : CancelReply} (hk : TurnKept before taskId token s)
    (hc : CancelContract before s taskId reply) :
    Answered before taskId (s.replyCancel taskId handler reply) where
  turnEnd := rfl
  reply := by
    refine ⟨reply, ?_, { hc with }⟩
    rw [← hk.replies]
    rfl

theorem TurnKept.refl (before : Primary) (taskId : TaskId) : TurnKept before taskId false before where
  others _ _ _ := .refl _ _
  accepted := (List.append_nil _).symm
  tokens _ := rfl
  own := nofun
  replies := rfl

theorem contract_notFound (hst : before.db.board.status taskId = none)
    (hsame : SameTask before.db s.db taskId) (hk : TurnKept before taskId false s) :
    CancelContract before s taskId (.error .taskNotFound) where
  cancelled := by simp [hst]
  accepted := by simp [hst]
  notCancellable := by simp [hst]
  notFound := by simp [hst]
  task := by simp
  running := by simp
  applied := by simp [hst]
  unchanged _ := hsame
  others := hk.others
  token := by simp [hst]
  tokens := by simpa [hst] using hk.tokens
  acceptedIds := by simpa [hst] using hk.accepted

theorem contract_cancelled {task : Task} (hst : before.db.board.status taskId = some .cancelled)
    (hid : task.id = taskId) (hrow : TaskRow.ofTask task ∈ s.db.tasks)
    (hsame : SameTask before.db s.db taskId) (hk : TurnKept before taskId false s) :
    CancelContract before s taskId (.ok (.cancelled task)) where
  cancelled := by simp [hst]
  accepted := by simp [hst]
  notCancellable := by simp [hst]
  notFound := by simp [hst]
  task := by simpa using ⟨hid, hrow⟩
  running := by simp
  applied := by simp [hst]
  unchanged _ := hsame
  others := hk.others
  token := by simp [hst]
  tokens := by simpa [hst] using hk.tokens
  acceptedIds := by simpa [hst] using hk.accepted

theorem contract_notCancellable {task : Task}
    (hst : before.db.board.status taskId = some task.status)
    (hterm : task.status = .completed ∨ task.status = .failed ∨ task.status = .interrupted)
    (hid : task.id = taskId) (hrow : TaskRow.ofTask task ∈ s.db.tasks)
    (hsame : SameTask before.db s.db taskId) (hk : TurnKept before taskId false s) :
    CancelContract before s taskId (.error (.taskNotCancellable task)) := by
  have hne : task.status ≠ .queued ∧ task.status ≠ .cancelled ∧ task.status ≠ .running := by
    rcases hterm with h | h | h <;> rw [h] <;> decide
  obtain ⟨hq, hc, hr⟩ := hne
  exact {
    cancelled := by simp [hst, hq, hc]
    accepted := by simp [hst, hr]
    notCancellable := by simpa [hst] using hterm
    notFound := by simp [hst]
    task := by simpa using ⟨hid, hrow⟩
    running := by simp
    applied := by simp [hst, hq]
    unchanged := fun _ => hsame
    others := hk.others
    token := by simp [hst, hr]
    tokens := by simpa [hst, hr] using hk.tokens
    acceptedIds := by simpa [hst, hr] using hk.accepted }

theorem contract_accepted {task : Task} (hst : before.db.board.status taskId = some .running)
    (hid : task.id = taskId) (hrun : task.status = .running)
    (hrow : TaskRow.ofTask task ∈ s.db.tasks)
    (hsame : SameTask before.db s.db taskId) (hk : TurnKept before taskId true s) :
    CancelContract before s taskId (.ok (.accepted task)) where
  cancelled := by simp [hst]
  accepted := by simp [hst]
  notCancellable := by simp [hst]
  notFound := by simp [hst]
  task := by simpa using ⟨hid, hrow⟩
  running := by simpa using hrun
  applied := by simp [hst]
  unchanged _ := hsame
  others := hk.others
  token := by simpa [hst] using hk.own
  tokens := by simpa [hst] using hk.tokens
  acceptedIds := by simpa [hst] using hk.accepted

theorem contract_applied {task : Task} (hst : before.db.board.status taskId = some .queued)
    (hid : task.id = taskId) (htask : CancelledTask before.db s.db task)
    (hk : TurnKept before taskId false s) :
    CancelContract before s taskId (.ok (.cancelled task)) where
  cancelled := by simp [hst]
  accepted := by simp [hst]
  notCancellable := by simp [hst]
  notFound := by simp [hst]
  task := by simpa using ⟨hid, htask.row⟩
  running := by simp
  applied _ := ⟨task, rfl, htask⟩
  unchanged hne := absurd hst hne
  others := hk.others
  token := by simp [hst]
  tokens := by simpa [hst] using hk.tokens
  acceptedIds := by simpa [hst] using hk.accepted

/-- The read of a cancel. -/
theorem cancel_read {concurrency : Nat} (h : Sound concurrency s)
    (hpc : s.manager.pc = .cancelRead taskId handler) (hs : s.readStep true = some s') :
    CancelPoint s taskId handler s' ∨ Answered s taskId s' := by
  unfold Primary.readStep at hs
  simp only [hpc] at hs
  rcases loadTask_row taskId h.store with ⟨hst, hload⟩ | ⟨task, hload, hid, hrow, hst⟩
  · simp only [hload] at hs
    cases hs
    exact .inr (.of (.refl s taskId) (contract_notFound hst (.refl _ _) (.refl s taskId)))
  · simp only [hload] at hs
    by_cases hq : task.status = .queued
    · rw [if_pos hq] at hs
      rw [hq] at hst
      cases hs
      exact .inl (.writing rfl (.inl rfl) hst (.refl _ _)
        ⟨fun _ _ _ => .refl _ _, (List.append_nil _).symm, fun _ => rfl, nofun, rfl⟩)
    · rw [if_neg hq] at hs
      cases hs
      unfold Primary.cancelCurrent
      cases hts : task.status with
      | queued => exact absurd hts hq
      | running =>
        rw [hts] at hst
        have hactive : task.id ∈ s.manager.active := by
          rw [hid]
          exact h.covered.running (h.modes.awake (by rw [hpc]; rfl)).1 (.inr (by rw [hpc]; rfl)) _ hst
        simp only [if_pos hactive]
        rw [hid]
        exact .inl (.reload rfl hst (.refl _ _)
          ⟨fun _ _ _ => .refl _ _, rfl, fun _ => rfl, fun _ => put_self .., rfl⟩)
      | cancelled =>
        rw [hts] at hst
        exact .inr (.of (.refl s taskId)
          (contract_cancelled hst hid hrow (.refl _ _) (.refl s taskId)))
      | completed | failed | interrupted =>
        exact .inr (.of (.refl s taskId)
          (contract_notCancellable hst (by rw [hts]; simp) hid hrow (.refl _ _) (.refl s taskId)))

/-- A call that the manager makes in its turn fails. -/
def Primary.CallFails (s : Primary) : Label → Prop
  | .read ok => ok = false
  | .write env repositoryId fails => ∃ operation writer, s.writer = ⟨operation, .manager⟩ :: writer ∧
    (operation.execute env repositoryId fails s.db).1 = none
  | _ => False

theorem CancelledTask.of_same {db db' db'' : Db} {task : Task} (h : CancelledTask db' db'' task)
    (hsame : SameTask db db' task.id) : CancelledTask db db'' task :=
  ⟨h.status, h.row, by rw [← hsame.events]; exact h.event⟩

theorem CancelPoint.write {env : Env} {repositoryId : RepositoryId} {fails : Bool}
    {operation : StoreWriterOperation} {writer : List WriteCommand}
    (hpc : s.manager.pc = .write (.cancel taskId handler) .waiting)
    (hst : before.db.board.status taskId = some .queued) (hsame : SameTask before.db s.db taskId)
    (hk : TurnKept before taskId false s) (hbefore : ∃ log, Reflects before.db log)
    (hstore : ∃ log, Reflects s.db log) (hl : Linked s.writer s.manager.pc)
    (hw : s.writer = ⟨operation, .manager⟩ :: writer)
    (hs : s.writeStep env repositoryId fails = some s')
    (hok : ¬s.CallFails (.write env repositoryId fails)) : CancelPoint before taskId handler s' := by
  obtain ⟨log₀, hlog₀⟩ := hbefore
  obtain ⟨log, hlog⟩ := hstore
  rw [hw] at hl
  obtain ⟨job, hjob, rfl, -⟩ := hl.head
  rw [hpc, ManagerPc.write.injEq] at hjob
  obtain ⟨rfl, -⟩ := hjob
  have hq : s.db.board.status taskId = some .queued := (hsame.status hlog₀ hlog).trans hst
  simp only [Primary.writeStep, hw] at hs
  cases hx : (StoreWriterOperation.task (ManagerWrite.cancel taskId handler).operation).execute env
      repositoryId fails s.db with
  | mk outcome db =>
    simp only [hx] at hs
    cases hs
    rcases cancel_write hlog hq hx with ⟨rfl, -⟩ | ⟨task, eventId, rfl, hid, htask, hothers⟩
    · exact absurd ⟨_, _, hw, by rw [hx]⟩ hok
    · refine .written (congrArg (ManagerPc.reply _) hpc) hst hid (htask.of_same (hid ▸ hsame))
        ⟨fun row hrow hne => ?_, hk.accepted, hk.tokens, hk.own, hk.replies⟩
      have hrow' := hk.others row hrow hne
      exact hrow'.trans (hothers row ((hrow'.row row rfl).2 hrow) hne)

theorem CancelPoint.turn {concurrency : Nat} (h : CancelPoint before taskId handler s)
    (hbefore : ∃ log, Reflects before.db log) (hsound : Sound concurrency s) (ht : Turn s l)
    (hs : next s l = some s') (hok : ¬s.CallFails l) :
    CancelPoint before taskId handler s' ∨ Answered before taskId s' := by
  cases h with
  | @writing stage hpc hstage hst hsame hk =>
    cases ht with
    | read ok => simp [next, Primary.readStep, hpc] at hs
    | resume => rcases hstage with rfl | rfl <;> simp [next, Primary.resumeStep, hpc] at hs
    | send =>
      rcases hstage with rfl | rfl
      · simp only [next, Primary.sendStep, hpc] at hs
        cases hs
        exact .inl (.writing rfl (.inr rfl) hst hsame
          ⟨hk.others, hk.accepted, hk.tokens, hk.own, hk.replies⟩)
      · simp [next, Primary.sendStep, hpc] at hs
    | write hw =>
      have hl := hsound.linked
      rw [hw] at hl
      obtain ⟨job, hjob, -⟩ := hl.head
      rw [hpc, ManagerPc.write.injEq] at hjob
      obtain ⟨-, rfl⟩ := hjob
      exact .inl (.write hpc hst hsame hk hbefore hsound.store hsound.linked hw hs hok)
  | written hpc hst hid htask hk =>
    cases ht with
    | read ok => simp [next, Primary.readStep, hpc] at hs
    | send => simp [next, Primary.sendStep, hpc] at hs
    | write hw =>
      have hl := hsound.linked
      rw [hw] at hl
      obtain ⟨job, hjob, -⟩ := hl.head
      rw [hpc] at hjob
      cases hjob
    | resume =>
      simp only [next, Primary.resumeStep, hpc] at hs
      cases hs
      exact .inr (.of hk (contract_applied hst hid htask hk))
  | reload hpc hst hsame hk =>
    cases ht with
    | send => simp [next, Primary.sendStep, hpc] at hs
    | resume => simp [next, Primary.resumeStep, hpc] at hs
    | write hw =>
      have hl := hsound.linked
      rw [hw] at hl
      obtain ⟨job, hjob, -⟩ := hl.head
      rw [hpc] at hjob
      cases hjob
    | read ok =>
      obtain rfl : ok = true := eq_true_of_ne_false hok
      obtain ⟨log₀, hlog₀⟩ := hbefore
      obtain ⟨log, hlog⟩ := hsound.store
      have hrun : s.db.board.status taskId = some .running := (hsame.status hlog₀ hlog).trans hst
      simp only [next, Primary.readStep, hpc] at hs
      rcases loadTask_row taskId ⟨log, hlog⟩ with ⟨hnone, -⟩ | ⟨task, hload, hid, hrow, htask⟩
      · rw [hrun] at hnone
        cases hnone
      · rw [hrun] at htask
        simp only [hload] at hs
        cases hs
        exact .inr (.of hk
          (contract_accepted hst hid (Option.some.inj htask).symm hrow hsame hk))

end

/-! ## Whole turns -/

section
variable {concurrency : Nat} {db : Db} {taskId : TaskId} {handler : Nat}

/-- What the steps beside a turn rest on. -/
structure Held (concurrency : Nat) (s : Primary) : Prop where
  sound : Sound concurrency s
  stops : Stops s.control s.shutdown
  queued : Queued s.writer s.coordinator

theorem held_start (h : Recovered db) : Held concurrency (.start concurrency db) where
  sound := sound_start h
  stops := ⟨nofun, nofun⟩
  queued := rfl

theorem held_step {l : Label ⊕ TaskManagerMessage} (h : Held concurrency s)
    (hs : crowdedNext s l = some s') : Held concurrency s' := by
  cases l with
  | inl l =>
    have hstep := step_of_next hs
    exact ⟨sound_step hstep h.sound, stops_step hstep h.sound.modes h.stops,
      queued_step hstep h.sound.modes h.sound.recovery h.queued⟩
  | inr message =>
    simp only [crowdedNext] at hs
    split at hs
    · cases hs
    · next hf =>
      cases hs
      exact ⟨{ h.sound with recovery := h.sound.recovery.push (eq_false_of_ne_true hf) }, h.stops,
        h.queued⟩

theorem inductive_held (h : Recovered db) : (crowded concurrency db).Inductive (Held concurrency) where
  init _ hi := hi ▸ held_start h
  step _ _ _ hs hstep := held_step hs hstep

/-- The manager is in the turn of a cancel, and no call of it fails. -/
def InTurn (s : Primary) (l : Label ⊕ TaskManagerMessage) : Prop :=
  s.manager.pc.cancelling = true ∧ ∀ l', l = .inl l' → ¬s.CallFails l'

/-- The steps of one turn of a cancel, and whatever goes on beside it. -/
def cancelTurn (concurrency : Nat) (db : Db) : LTS Primary (Label ⊕ TaskManagerMessage) :=
  (crowded concurrency db).restrict InTurn

theorem cancelling_quiet {pc : ManagerPc} (h : pc.cancelling = true) : pc.quiet = false := by
  unfold ManagerPc.cancelling at h
  split at h <;> first | rfl | cases h

theorem aside_crowded {l : Label ⊕ TaskManagerMessage} (h : Held concurrency s)
    (hc : s.manager.pc.cancelling = true) (hs : crowdedNext s l = some s') :
    (∃ l', l = .inl l' ∧ Turn s l') ∨ Aside s s' := by
  cases l with
  | inl l =>
    have hd := (h.sound.modes.awake (cancelling_quiet hc)).1
    have hco := (h.sound.recovery.absent hd).1
    have hq := h.queued
    rw [hco] at hq
    exact (aside_step hs hc h.sound.store h.sound.linked hq hco h.stops).imp_left
      fun ht => ⟨l, rfl, ht⟩
  | inr message =>
    simp only [crowdedNext] at hs
    split at hs
    · cases hs
    · cases hs
      exact .inr (.of rfl rfl rfl rfl rfl rfl)

/-- From any point of the turn on. -/
theorem answered_run {before : Primary} {ls : List (Label ⊕ TaskManagerMessage)}
    (hrun : (cancelTurn concurrency db).Run s ls s') (hbefore : ∃ log, Reflects before.db log)
    (h : CancelPoint before taskId handler s) (hheld : Held concurrency s) :
    CancelPoint before taskId handler s' ∨ Answered before taskId s' := by
  induction hrun with
  | nil => exact .inl h
  | @cons s m s' l ls hstep hrest ih =>
    obtain ⟨⟨hc, hok⟩, hs⟩ := hstep
    have hheld' := held_step hheld hs
    rcases aside_crowded hheld hc hs with ⟨l', rfl, ht⟩ | ha
    · rcases h.turn hbefore hheld.sound ht hs (hok l' rfl) with h | h
      · exact ih h hheld'
      · -- the turn is over, and so is the run
        cases hrest with
        | nil => exact .inr h
        | cons hstep =>
          have hc := hstep.1.1
          rw [h.turnEnd] at hc
          cases hc
    · exact ih (h.aside ha) hheld'

/-- From before the read on: other components act, then the manager reads. -/
theorem cancel_run {ls : List (Label ⊕ TaskManagerMessage)}
    (hrun : (cancelTurn concurrency db).Run s ls s')
    (hpc : s.manager.pc = .cancelRead taskId handler) (hheld : Held concurrency s) :
    (s'.manager.pc = .cancelRead taskId handler ∧ Aside s s') ∨
      ∃ before ls₁ ls₂, ls = ls₁ ++ .inl (.read true) :: ls₂ ∧
        (cancelTurn concurrency db).Run s ls₁ before ∧ Aside s before ∧
        (CancelPoint before taskId handler s' ∨ Answered before taskId s') := by
  induction hrun with
  | nil s => exact .inl ⟨hpc, .refl s⟩
  | @cons s m s' l ls hstep hrest ih =>
    obtain ⟨⟨hc, hok⟩, (hs : crowdedNext s l = some m)⟩ := hstep
    have hheld' := held_step hheld hs
    rcases aside_crowded hheld hc hs with ⟨l', rfl, ht⟩ | ha
    · right
      cases ht with
      | send => simp [crowdedNext, next, Primary.sendStep, hpc] at hs
      | resume => simp [crowdedNext, next, Primary.resumeStep, hpc] at hs
      | write hw =>
        have hl := hheld.sound.linked
        rw [hw] at hl
        obtain ⟨job, hjob, -⟩ := hl.head
        rw [hpc] at hjob
        cases hjob
      | read ok =>
        obtain rfl : ok = true := eq_true_of_ne_false (hok _ rfl)
        refine ⟨s, [], ls, rfl, .nil s, .refl s, ?_⟩
        rcases cancel_read hheld.sound hpc hs with h | h
        · exact answered_run hrest hheld.sound.store h hheld'
        · cases hrest with
          | nil => exact .inr h
          | cons hstep =>
            have hc := hstep.1.1
            rw [h.turnEnd] at hc
            cases hc
    · rcases ih (by rw [ha.manager, hpc]) hheld' with ⟨hpc', ha'⟩ | ⟨before, ls₁, ls₂, rfl, h⟩
      · exact .inl ⟨hpc', ha.trans ha'⟩
      · obtain ⟨hrun₁, ha₁, h⟩ := h
        exact .inr ⟨before, l :: ls₁, ls₂, rfl, .cons ⟨⟨hc, hok⟩, hs⟩ hrun₁, ha.trans ha₁, h⟩

end

/-! ## A turn ends -/

section
variable {env : Env} {repositoryId : RepositoryId} {fails : Bool} {taskId : TaskId} {handler : Nat}

/-- The manager's steps in a turn, and those of the writer. -/
inductive Own (env : Env) (repositoryId : RepositoryId) (fails : Bool) : Label → Prop
  | read : Own env repositoryId fails (.read true)
  | send : Own env repositoryId fails .send
  | resume : Own env repositoryId fails .resume
  | write : Own env repositoryId fails (.write env repositoryId fails)

/-- The manager and the writer alone can end the turn. -/
def Ends (env : Env) (repositoryId : RepositoryId) (fails : Bool) (s : Primary) : Prop :=
  ∃ ls s', (∀ l ∈ ls, Own env repositoryId fails l) ∧ LTS.exec next s ls = some s' ∧
    s'.manager.pc = .turnEnd

theorem Ends.step (hl : Own env repositoryId fails l) (hs : next s l = some s')
    (h : Ends env repositoryId fails s') : Ends env repositoryId fails s := by
  obtain ⟨ls, s'', hown, hrun, hend⟩ := h
  refine ⟨l :: ls, s'', fun l' hmem => ?_, ?_, hend⟩
  · rcases List.mem_cons.1 hmem with rfl | hmem
    · exact hl
    · exact hown l' hmem
  · rw [LTS.exec, hs]
    exact hrun

theorem Ends.done (h : s.manager.pc = .turnEnd) : Ends env repositoryId fails s :=
  ⟨[], s, fun _ hmem => absurd hmem List.not_mem_nil, rfl, h⟩

theorem ends_reload (hpc : s.manager.pc = .cancelReload taskId handler) :
    Ends env repositoryId fails s := by
  have hs : ∃ reply, next s (.read true) = some (s.replyCancel taskId handler reply) := by
    simp only [next, Primary.readStep, hpc]
    split
    · exact ⟨_, rfl⟩
    · exact ⟨_, rfl⟩
  obtain ⟨reply, hs⟩ := hs
  exact .step .read hs (.done rfl)

theorem ends_current (taskId : TaskId) (handler : Nat) (task : Task) :
    Ends env repositoryId fails (s.cancelCurrent taskId handler task) := by
  unfold Primary.cancelCurrent
  split
  · split
    · exact ends_reload rfl
    · exact .done rfl
  · exact .done rfl
  · exact .done rfl
  all_goals exact .done rfl

theorem ends_replied {reply : Option Reply}
    (hpc : s.manager.pc = .write (.cancel taskId handler) (.replied reply)) :
    Ends env repositoryId fails s := by
  have hs : next s .resume = some (s.finishCancel taskId handler reply) := by
    simp only [next, Primary.resumeStep, hpc]
  refine .step .resume hs ?_
  unfold Primary.finishCancel
  split
  · exact .done rfl
  · exact ends_current ..
  · exact .done rfl

/-- The writer gets to the command of the manager: by induction on its queue. -/
theorem ends_waiting (writer : List WriteCommand) (hw : s.writer = writer)
    (hpc : s.manager.pc = .write (.cancel taskId handler) .waiting)
    (hl : Linked s.writer s.manager.pc) : Ends env repositoryId fails s := by
  induction writer generalizing s with
  | nil =>
    have hm := hl.manager
    rw [hw, hpc] at hm
    cases hm
  | cons command writer ih =>
    have hs : ∃ s', next s (.write env repositoryId fails) = some s' := by
      simp only [next, Primary.writeStep, hw]
      exact ⟨_, rfl⟩
    obtain ⟨s', hs⟩ := hs
    refine .step .write hs ?_
    obtain ⟨operation, origin⟩ := command
    simp only [next, Primary.writeStep, hw] at hs
    cases origin with
    | manager =>
      cases hs
      exact ends_replied (congrArg (ManagerPc.reply _) hpc)
    | coordinator | handler n =>
      cases hs
      rw [hw] at hl
      exact ih rfl hpc (hl.other (by simp))

theorem ends_sending (hpc : s.manager.pc = .write (.cancel taskId handler) .sending)
    (hl : Linked s.writer s.manager.pc) : Ends env repositoryId fails s := by
  have hs := show next s .send = s.sendStep from rfl
  simp only [Primary.sendStep, hpc] at hs
  refine .step .send hs (ends_waiting _ rfl rfl ?_)
  exact linked_step (step_of_next hs) hl

theorem CancelPoint.ends {concurrency : Nat} {before : Primary}
    (h : CancelPoint before taskId handler s) (hs : Sound concurrency s) :
    Ends env repositoryId fails s := by
  cases h with
  | writing hpc hstage =>
    rcases hstage with rfl | rfl
    · exact ends_sending hpc hs.linked
    · exact ends_waiting _ rfl hpc hs.linked
  | written hpc => exact ends_replied hpc
  | reload hpc => exact ends_reload hpc

theorem ends_read {concurrency : Nat} (h : Sound concurrency s)
    (hpc : s.manager.pc = .cancelRead taskId handler) : Ends env repositoryId fails s := by
  have hs : ∃ s', next s (.read true) = some s' := by
    simp only [next, Primary.readStep, hpc]
    split
    · exact ⟨_, rfl⟩
    · split
      · exact ⟨_, rfl⟩
      · exact ⟨_, rfl⟩
  obtain ⟨s', hs⟩ := hs
  refine .step .read hs ?_
  rcases cancel_read h hpc hs with hp | ha
  · exact hp.ends (sound_step (step_of_next hs) h)
  · exact .done ha.turnEnd

end

/-! ## Cancel -/

section
variable {concurrency : Nat} {db : Db}

/-- A turn that began at `s` with the manager's read still to come: where it
may be, and how it ends. -/
structure CancelRun (concurrency : Nat) (db : Db) (taskId : TaskId) (s : Primary)
    (ls : List (Label ⊕ TaskManagerMessage)) (s' : Primary) : Prop where
  /-- whatever the writer's next results are -/
  ends : s'.manager.pc.cancelling = true → ∀ env repositoryId fails, Ends env repositoryId fails s'
  answered : s'.manager.pc.cancelling = false → ∃ before ls₁ ls₂,
    ls = ls₁ ++ .inl (.read true) :: ls₂ ∧ (cancelTurn concurrency db).Run s ls₁ before ∧
    Aside s before ∧ Answered before taskId s'

theorem settled_run {ls : List (Label ⊕ TaskManagerMessage)}
    (hrun : (crowded concurrency db).Run s ls s') (hheld : Held concurrency s) {id : TaskId}
    (hid : s.db.board.Settled id) :
    s'.db.board.verdict id = s.db.board.verdict id ∧ s'.db.board.panel id = s.db.board.panel id := by
  induction hrun with
  | nil => exact ⟨rfl, rfl⟩
  | @cons s m s' l ls hstep _ ih =>
    have hkept : m.db.board.verdict id = s.db.board.verdict id ∧
        m.db.board.panel id = s.db.board.panel id := by
      cases l with
      | inl l => exact step_settled (step_of_next hstep) hheld.sound.store hid
      | inr message =>
        change (if message.isFinalize then none else some _) = some m at hstep
        split at hstep <;> cases hstep
        exact ⟨rfl, rfl⟩
    obtain ⟨hv, hp⟩ := hkept
    obtain ⟨status, hst, hterm⟩ := hid
    have hid' : m.db.board.Settled id := ⟨status, by rw [Board.status, hv]; exact hst, hterm⟩
    obtain ⟨hv', hp'⟩ := ih (held_step hheld hstep) hid'
    exact ⟨hv'.trans hv, hp'.trans hp⟩

theorem cancelRun {taskId : TaskId} {handler : Nat} {ls : List (Label ⊕ TaskManagerMessage)}
    (hrun : (cancelTurn concurrency db).Run s ls s')
    (hpc : s.manager.pc = .cancelRead taskId handler) (hheld : Held concurrency s) :
    CancelRun concurrency db taskId s ls s' := by
  have hstep : ∀ p l p', Held concurrency p → (cancelTurn concurrency db).step p l p' →
      Held concurrency p' := fun _ _ _ hp hstep => held_step hp hstep.2
  have hheld' := hrun.preserves hstep hheld
  rcases cancel_run hrun hpc hheld with ⟨hpc', -⟩ | ⟨before, ls₁, ls₂, hls, hrun₁, ha, hp | hans⟩
  · exact ⟨fun _ _ _ _ => ends_read hheld'.sound hpc', fun hc => by rw [hpc'] at hc; cases hc⟩
  · refine ⟨fun _ _ _ _ => hp.ends hheld'.sound, fun hc => ?_⟩
    rw [hp.cancelling] at hc
    cases hc
  · refine ⟨fun hc => ?_, fun _ => ⟨before, ls₁, ls₂, hls, hrun₁, ha, hans⟩⟩
    rw [hans.turnEnd] at hc
    cases hc

/-- **Cancel.** In every reachable state: no cancel was told of a queued
conflict; a terminal task keeps its status and its events, whatever comes; and
where a cancel is let in, its turn ends, and once it has, it was answered as
`CancelContract` says of the state it read. -/
theorem cancel_contract (h : Recovered db) (hr : (crowded concurrency db).Reachable s) :
    (∀ taskId, (taskId, queuedConflict) ∉ s.cancelReplies) ∧
    (∀ ls s', (crowded concurrency db).Run s ls s' → ∀ id, s.db.board.Settled id →
      s'.db.board.verdict id = s.db.board.verdict id ∧
        s'.db.board.panel id = s.db.board.panel id) ∧
    ∀ taskId handler mailbox now, s.manager.pc = .idle →
      s.mailbox = .cancel taskId handler :: mailbox → s.isFrozen = false →
      s.manager.degraded = false → ∃ s₁, next s (.receive now) = some s₁ ∧
        s₁ = { s with mailbox, manager := s.manager.goto (.cancelRead taskId handler) } ∧
        ∀ ls s', (cancelTurn concurrency db).Run s₁ ls s' →
          CancelRun concurrency db taskId s₁ ls s' := by
  have hheld := (inductive_held h).reachable s hr
  refine ⟨fun id => (hheld.sound.answers id).2, fun ls s' hrun id hid => settled_run hrun hheld hid,
    fun taskId handler mailbox now hpc hm hf hd => ?_⟩
  have hs : next s (.receive now) =
      some { s with mailbox, manager := s.manager.goto (.cancelRead taskId handler) } := by
    simp only [next, Primary.receiveStep, hpc, hm, Primary.handleMessage]
    rw [if_neg (by simpa [Primary.isFrozen] using hf), if_neg (by simpa using hd)]
  have hstep : crowdedNext s (.inl (.receive now)) = some _ := hs
  exact ⟨_, hs, rfl, fun ls s' hrun => cancelRun hrun rfl (held_step hheld hstep)⟩

/-- A running task, and a request to cancel it. -/
def sampleAsk : List (Label ⊕ TaskManagerMessage) :=
  sampleClaim.map .inl ++ [.inr (.cancel sampleTask 9)]

theorem cancel_contract_sample : ∃ s s' ls, (crowded 4 sampleDb).Reachable s ∧
    s'.manager.pc = .turnEnd ∧ s'.accepted = [sampleTask] ∧
    CancelRun 4 sampleDb sampleTask { s with
      mailbox := [], manager := s.manager.goto (.cancelRead sampleTask 9) } ls s' := by
  have hrun : ((LTS.exec crowdedNext (.start 4 sampleDb) sampleAsk).bind fun s =>
      (next s (.receive (.ok .epoch))).bind fun s₁ => (next s₁ (.read true)).bind fun s₂ =>
        (next s₂ (.read true)).map fun s₃ => (s.mailbox, [s.isFrozen, s.manager.degraded],
          [s.manager.pc, s₂.manager.pc, s₃.manager.pc], s₃.accepted)) =
        some ([.cancel sampleTask 9], [false, false],
          [.idle, .cancelReload sampleTask 9, .turnEnd], [sampleTask]) := by decide +kernel
  obtain ⟨s, hs, hrun⟩ := Option.bind_eq_some_iff.1 hrun
  obtain ⟨s₁, hs₁, hrun⟩ := Option.bind_eq_some_iff.1 hrun
  obtain ⟨s₂, hs₂, hrun⟩ := Option.bind_eq_some_iff.1 hrun
  obtain ⟨s₃, hs₃, heq⟩ := Option.map_eq_some_iff.1 hrun
  simp only [Prod.mk.injEq, List.cons.injEq, and_true] at heq
  obtain ⟨hm, ⟨hf, hd⟩, ⟨hpc, hpc₂, hpc₃⟩, hacc⟩ := heq
  have hr : (crowded 4 sampleDb).Reachable s := LTS.reachable_of_exec rfl hs
  obtain ⟨s₁', hs₁', rfl, hturn⟩ :=
    (cancel_contract recovered_sampleDb hr).2.2 sampleTask 9 [] (.ok .epoch) hpc hm hf hd
  rw [hs₁', Option.some.injEq] at hs₁
  subst hs₁
  refine ⟨s, s₃, [.inl (.read true), .inl (.read true)], hr, hpc₃, hacc, hturn _ _ ?_⟩
  refine .cons ⟨⟨rfl, ?_⟩, hs₂⟩ (.cons ⟨⟨by rw [hpc₂]; rfl, ?_⟩, hs₃⟩ (.nil _))
  all_goals
    rintro l' ⟨⟩ hfail
    cases hfail

end

end CodingAgent.L4.App
