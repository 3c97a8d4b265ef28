import CodingAgent.L5Web.Session

/-!
# Cancel commands (`web/src/state/{reducer.ts,useAgentState.ts}`)

`cancelByTaskId` holds a command for every task that is being cancelled. It is
written by `cancelTask` and taken away by whatever ends the task; some of what
makes a task terminal updates the summary and not the command.

A client session with its cancel requests: one is started, answered with the
task as the server then has it, and ends as a success, a failure or the end of
the session, at any later time. Everything else is the session as it was.

* `cancelInv_step`, `cancelInv_reachable`: a command of a task whose end was
  applied has a request under way.
* `removes_pending`: what can take a pending command from a task that goes on.
* `cancel_commands`: the two together.
-/
namespace CodingAgent.L5.Web
open CodingAgent.L1.Domain CodingAgent.L2 CodingAgent.L2.Store CodingAgent.IdLog

/-! ## The requests -/

/-- A request that was started and has not ended; an answer is one of the
session's responses. -/
structure CancelRequest where
  taskId : TaskId
  answer : Option Nat
  deriving DecidableEq, Repr

structure CancelState where
  session : SessionState
  requests : List CancelRequest

inductive CancelLabel where
  | session (label : SessionLabel)
  | started (taskId : TaskId)
  | answered (index : Nat)
  | succeeded (index : Nat)
  | failed (index : Nat) (error : CommandError)
  /-- the request is refused because the session has ended -/
  | expired (index : Nat)

/-- The labels of a session that a request stands for. -/
def SessionLabel.isCancel : SessionLabel → Bool
  | .cancelSucceeded _ => true
  | .view (.cancelStarted _) | .view (.cancelFailed ..) => true
  | _ => false

/-- One step; `none` where the label is not enabled.
mirrors web/src/state/useAgentState.ts:396-413 -/
def cancelNext (s : CancelState) : CancelLabel → Option CancelState
  | .session label =>
    if label.isCancel then none
    else (sessionNext s.session label).map fun session => { s with session }
  | .started taskId =>
    some { session := s.session.dispatch (.cancelStarted taskId),
           requests := s.requests ++ [⟨taskId, none⟩] }
  | .answered index =>
    match s.requests[index]? with
    | some ⟨taskId, none⟩ =>
      (sessionNext s.session (.taskRead taskId)).map fun session =>
        { session,
          requests := s.requests.set index ⟨taskId, some s.session.responses.length⟩ }
    | _ => none
  | .succeeded index =>
    match s.requests[index]? with
    | some ⟨_, some answer⟩ =>
      (sessionNext s.session (.cancelSucceeded answer)).map fun session =>
        { session, requests := s.requests.eraseIdx index }
    | _ => none
  | .failed index error =>
    s.requests[index]?.map fun request =>
      { session := s.session.dispatch (.cancelFailed request.taskId error),
        requests := s.requests.eraseIdx index }
  | .expired index =>
    s.requests[index]?.map fun _ =>
      { session := s.session.dispatch .sessionExpired, requests := s.requests.eraseIdx index }

def cancelSession (repositories : List RepositoryRow) : LTS CancelState CancelLabel :=
  LTS.ofFn (fun s => s = ⟨.init repositories, []⟩) cancelNext

/-! ## Ended tasks -/

/-- The event that ends the task was applied. -/
def Ended (log : List TaskEvent) (c : AgentState) (id : TaskId) : Prop :=
  ∃ e ∈ log, ∃ task, e.taskId = id ∧ e.payload.task? = some task ∧ isTerminalTask task = true ∧
    e.id.get ≤ c.appliedEventId

/-- The client knows the task to be over. -/
def KnownEnded (c : AgentState) (id : TaskId) : Prop :=
  ∃ task, c.tasksById id = some task ∧ isTerminalTask task = true

/-- A row as of the end of its task, or later, is terminal. -/
theorem terminal_of_ended {log : List TaskEvent} (h : history.Valid log) {e : TaskEvent}
    (he : e ∈ log) {task row : Task} (htask : e.payload.task? = some task)
    (hterm : isTerminalTask task = true) (hrow : RowTrue log row) (hid : row.id = e.taskId)
    (hle : e.id.get ≤ row.lastEventId.get) : isTerminalTask row = true := by
  have hend : rowAt log e.taskId e.id.get = some task := by
    rw [rowAt_next h he (Nat.sub_lt e.id.pos Nat.one_pos) (fun x _ _ hx => by omega),
      applyEvent_task htask]
  obtain ⟨post, hpost, -⟩ := EventModel.cut_prefix h.increasing e.id.get
  have hnone := (valid_terminal_stable (hpost ▸ h) hend (isTerminalTask_eq task ▸ hterm)).1
  -- the version of the row is an event of the task, and none is beyond its end
  obtain ⟨x, hx, hxid, hxrow⟩ := (rowAt_version h hrow).mem
  have hxle : x.id.get ≤ e.id.get := by
    rw [hpost] at hx
    rcases List.mem_append.1 hx with hx | hx
    · exact (EventModel.mem_cut.1 hx).2
    · have hmem : x ∈ history.streamOf post e.taskId :=
        EventModel.mem_streamOf.2 ⟨hx, hxid.trans hid⟩
      rw [hnone] at hmem
      cases hmem
  have hversion : row.lastEventId.get = e.id.get := by
    rw [← hxrow] at hle ⊢
    omega
  rw [RowTrue, hid, hversion, hend, Option.some.injEq] at hrow
  rw [← hrow]
  exact hterm

/-- A task whose end was applied is known to be over. -/
theorem Ended.known {log : List TaskEvent} {c : AgentState} {id : TaskId} (h : history.Valid log)
    (hi : TasksInv log c) (hend : Ended log c id) : KnownEnded c id := by
  obtain ⟨e, he, task, rfl, htask, hterm, hle⟩ := hend
  obtain ⟨row, hrow⟩ := Option.ne_none_iff_exists'.1 (hi.known e he hle)
  obtain ⟨hid, htrue, hcovers⟩ := hi.rows _ row hrow
  exact ⟨row, hrow, terminal_of_ended h he htask hterm htrue hid (hcovers e he hid.symm hle)⟩

theorem Ended.grow {log new : List TaskEvent} {c : AgentState} {id : TaskId}
    (h : history.Valid (log ++ new)) (hi : TasksInv log c) (hend : Ended (log ++ new) c id) :
    Ended log c id := by
  obtain ⟨e, he, task, hid, htask, hterm, hle⟩ := hend
  rcases List.mem_append.1 he with he | he
  · exact ⟨e, he, task, hid, htask, hterm, hle⟩
  · have hlt := latest_lt h e he
    have happlied := hi.applied
    omega

theorem Ended.congr {log : List TaskEvent} {c c' : AgentState} {id : TaskId}
    (ha : c'.appliedEventId = c.appliedEventId) (hend : Ended log c' id) : Ended log c id := by
  obtain ⟨e, he, task, hid, htask, hterm, hle⟩ := hend
  exact ⟨e, he, task, hid, htask, hterm, ha ▸ hle⟩

/-! ## What the actions do to the commands -/

/-- The event ends its task. -/
def EndsTask (e : TaskEvent) : Prop :=
  ∃ task, e.payload.task? = some task ∧ isTerminalTask task = true

/-- What a step of the session, its requests apart, does to the commands. -/
inductive CommandEffect (log : List TaskEvent) (s s' : SessionState) : SessionLabel → Prop where
  | kept {l : SessionLabel} (commands : s'.client.cancelByTaskId = s.client.cancelByTaskId)
      (applied : s'.client.appliedEventId = s.client.appliedEventId) : CommandEffect log s s' l
  | bootstrap {index : Nat} {b : BootstrapResponse} (received : s.bootstraps[index]? = some b)
      (tasks : s'.client.tasksById = (normalizeById Task.id b.tasks).1)
      (commands : s'.client.cancelByTaskId = reconcileCommands s.client s'.client.tasksById) :
      CommandEffect log s s' (.bootstrapReceived index)
  | event {e : TaskEvent} (next : NextEvent log s.client.appliedEventId e)
      (applied : s'.client.appliedEventId = e.id.get)
      (ended : EndsTask e → s'.client.cancelByTaskId = removeCancelCommand s.client e.taskId)
      (goesOn : ¬EndsTask e → s'.client.cancelByTaskId = s.client.cancelByTaskId) :
      CommandEffect log s s' .eventReceived
  | sessionExpired (commands : s'.client.cancelByTaskId = .empty) :
      CommandEffect log s s' (.view .sessionExpired)

theorem removeCancelCommand_self (c : AgentState) (id : TaskId) :
    removeCancelCommand c id id = none := if_pos rfl

theorem removeCancelCommand_other (c : AgentState) {id other : TaskId} (h : other ≠ id) :
    removeCancelCommand c id other = c.cancelByTaskId other := if_neg h

theorem commands_upsertRestTask (c : AgentState) (t : Task) :
    (upsertRestTask c t).cancelByTaskId = c.cancelByTaskId := by
  rcases upsertRestTask_cases c t with h | ⟨h, -⟩
  · rw [h]
  · rw [h]
    rfl

theorem commands_installDetail (c : AgentState) (id : TaskId) (generation : Nat) (d : TaskDetail) :
    (installDetail c id generation d).cancelByTaskId = c.cancelByTaskId ∧
      (installDetail c id generation d).appliedEventId = c.appliedEventId := by
  unfold installDetail
  split
  · exact ⟨rfl, rfl⟩
  · simp only
    split
    · split <;> exact ⟨rfl, rfl⟩
    · exact ⟨rfl, rfl⟩

theorem commands_event {log : List TaskEvent} {c : AgentState} {e : TaskEvent}
    (h : history.Valid log) (hn : NextEvent log c.appliedEventId e) :
    (reducePersistedEvent c e).appliedEventId = e.id.get ∧
      (EndsTask e → (reducePersistedEvent c e).cancelByTaskId = removeCancelCommand c e.taskId) ∧
      (¬EndsTask e → (reducePersistedEvent c e).cancelByTaskId = c.cancelByTaskId) := by
  have hschema : e.schemaVersion = supportedSchemaVersion := (valid_eventOk h e hn.mem).schema
  have hlt : c.appliedEventId < e.id.get := hn.lt
  unfold reducePersistedEvent EndsTask
  rw [if_neg (by simp [hschema]), if_neg (by omega), if_neg (by omega)]
  cases e.payload.task? with
  | none => exact ⟨rfl, (fun h => by simp at h), fun _ => rfl⟩
  | some task =>
    cases hterm : isTerminalTask task with
    | false => exact ⟨rfl, (fun h => by simp [hterm] at h), fun _ => by simp [hterm]⟩
    | true => exact ⟨rfl, (fun _ => by simp [hterm]), fun h => by simp [hterm] at h⟩

theorem commandEffect {log : List TaskEvent} {s s' : SessionState} {l : SessionLabel}
    (hi : SessionInv s log) (hl : l.isCancel = false) (h : sessionNext s l = some s') :
    CommandEffect log s s' l := by
  cases l with
  | call call =>
    simp only [sessionNext, Option.some.injEq] at h
    subst h
    exact .kept rfl rfl
  | bootstrapRead service =>
    simp only [sessionNext] at h
    split at h <;> cases h
    exact .kept rfl rfl
  | taskRead taskId =>
    simp only [sessionNext] at h
    split at h <;> cases h
    exact .kept rfl rfl
  | detailRead =>
    simp only [sessionNext] at h
    split at h <;> cases h
    exact .kept rfl rfl
  | bootstrapReceived index =>
    simp only [sessionNext, Option.map_eq_some_iff] at h
    obtain ⟨b, hb, rfl⟩ := h
    exact .bootstrap hb rfl rfl
  | taskUpserted index =>
    simp only [sessionNext, Option.map_eq_some_iff] at h
    obtain ⟨t, -, rfl⟩ := h
    exact .kept (commands_upsertRestTask _ t) (sameSelection_upsert _ t).applied
  | cancelSucceeded index => cases hl
  | eventReceived =>
    simp only [sessionNext] at h
    split at h
    · rename_i page db' hp
      simp only [Option.map_eq_some_iff] at h
      obtain ⟨e, he, rfl⟩ := h
      have hn := next_of_page hi.db hp he
      obtain ⟨happlied, hended, hgoesOn⟩ := commands_event hi.db.valid hn
      exact .event hn happlied hended hgoesOn
    · cases h
  | taskSelected taskId =>
    simp only [sessionNext, Option.some.injEq] at h
    subst h
    exact .kept rfl rfl
  | rendered =>
    simp only [sessionNext, Option.some.injEq] at h
    subst h
    have hclient : s.render.client = s.client := by
      unfold SessionState.render
      simp only
      split <;> rfl
    exact .kept (by rw [hclient]) (by rw [hclient])
  | detailReceived =>
    simp only [sessionNext] at h
    split at h
    · cases h
      obtain ⟨hcommands, happlied⟩ := commands_installDetail s.client _ _ _
      exact .kept hcommands happlied
    · cases h
  | detailFailed message =>
    simp only [sessionNext, Option.map_eq_some_iff] at h
    obtain ⟨r, -, rfl⟩ := h
    have hclient : (agentReducer s.client
          (.detailFailed r.taskId r.generation message)).cancelByTaskId = s.client.cancelByTaskId ∧
        (agentReducer s.client (.detailFailed r.taskId r.generation message)).appliedEventId =
          s.client.appliedEventId := by
      simp only [agentReducer]
      split <;> exact ⟨rfl, rfl⟩
    exact .kept hclient.1 hclient.2
  | view action =>
    simp only [sessionNext] at h
    split at h
    · rename_i hview
      simp only [Option.some.injEq] at h
      subst h
      cases action with
      | bootstrapStarted => exact .kept rfl rfl
      | bootstrapFailed reason protocol => exact .kept rfl rfl
      | connectionChanged connection reason => exact .kept rfl rfl
      | sessionExpired => exact .sessionExpired rfl
      | repositoryUpserted repository => exact .kept rfl rfl
      | serviceReceived state generation =>
        have hclient : (agentReducer s.client (.serviceReceived state generation)).cancelByTaskId =
              s.client.cancelByTaskId ∧
            (agentReducer s.client (.serviceReceived state generation)).appliedEventId =
              s.client.appliedEventId := by
          simp only [agentReducer]
          split <;> exact ⟨rfl, rfl⟩
        exact .kept hclient.1 hclient.2
      | cancelStarted _ | cancelFailed _ _ => cases hl
      | bootstrapReceived _ | taskUpserted _ | taskSelected _ | detailReceived _ _ _
      | detailFailed _ _ _ | eventReceived _ | eventUnknown _ _ _ | cancelSucceeded _ => cases hview
    · cases h

/-- A success keeps the commands, or ends the one of a task then known to be
over. -/
theorem cancelSucceeded_cases (c : AgentState) (t : Task) :
    (KnownEnded (reduceCancelSucceeded c t) t.id ∧
      (reduceCancelSucceeded c t).cancelByTaskId = removeCancelCommand c t.id) ∨
    (¬KnownEnded (reduceCancelSucceeded c t) t.id ∧
      (reduceCancelSucceeded c t).cancelByTaskId = c.cancelByTaskId) := by
  unfold reduceCancelSucceeded KnownEnded
  cases hresulting : (upsertRestTask c t).tasksById t.id with
  | none => simp [hresulting]
  | some resulting => cases hterm : isTerminalTask resulting <;> simp [hresulting, hterm]

theorem applied_cancelSucceeded (c : AgentState) (t : Task) :
    (reduceCancelSucceeded c t).appliedEventId = c.appliedEventId :=
  (sameSelection_upsert c t).applied

/-- A failure ends the command of a task known to be over, or becomes it. -/
theorem cancelFailed_cases (c : AgentState) (id : TaskId) (error : CommandError) :
    (reduceCancelFailed c id error).appliedEventId = c.appliedEventId ∧
    ((KnownEnded c id ∧ (reduceCancelFailed c id error).cancelByTaskId = removeCancelCommand c id) ∨
     (¬KnownEnded c id ∧
      (reduceCancelFailed c id error).cancelByTaskId = c.cancelByTaskId.put id (.error error))) := by
  unfold reduceCancelFailed KnownEnded
  cases c.tasksById id with
  | none => simp
  | some current => cases hterm : isTerminalTask current <;> simp [hterm]

/-! ## The invariant -/

/-- A command of an ended task has a request under way. -/
def Guarded (log : List TaskEvent) (c : AgentState) (requests : List CancelRequest) : Prop :=
  ∀ id, c.cancelByTaskId id ≠ none → Ended log c id → ∃ r ∈ requests, r.taskId = id

structure CancelInv (s : CancelState) (log : List TaskEvent) : Prop where
  session : SessionInv s.session log
  /-- the answer to a request is the task it names -/
  answers : ∀ r ∈ s.requests, ∀ index, r.answer = some index →
    ∃ t, s.session.responses[index]? = some t ∧ t.id = r.taskId
  guarded : Guarded log s.session.client s.requests

/-- Responses stay where they are. -/
theorem responses_step {s s' : SessionState} {l : SessionLabel} (h : sessionNext s l = some s') :
    s.responses <+: s'.responses := by
  cases l with
  | taskRead taskId =>
    simp only [sessionNext] at h
    split at h <;> cases h
    exact List.prefix_append _ _
  | rendered =>
    simp only [sessionNext, Option.some.injEq] at h
    subst h
    unfold SessionState.render
    simp only
    split <;> exact List.prefix_rfl
  | view action =>
    simp only [sessionNext] at h
    split at h <;> cases h
    exact List.prefix_rfl
  | call _ | taskSelected _ =>
    cases h
    exact List.prefix_rfl
  | bootstrapReceived _ | taskUpserted _ | cancelSucceeded _ | detailFailed _ =>
    simp only [sessionNext, Option.map_eq_some_iff] at h
    obtain ⟨_, -, rfl⟩ := h
    exact List.prefix_rfl
  | bootstrapRead _ | detailRead | detailReceived =>
    simp only [sessionNext] at h
    split at h <;> cases h
    exact List.prefix_rfl
  | eventReceived =>
    simp only [sessionNext] at h
    split at h
    · simp only [Option.map_eq_some_iff] at h
      obtain ⟨_, -, rfl⟩ := h
      exact List.prefix_rfl
    · cases h

/-- The answers are those of the session after a step. -/
theorem answers_step {s s' : SessionState} {l : SessionLabel} {requests : List CancelRequest}
    (h : sessionNext s l = some s')
    (ha : ∀ r ∈ requests, ∀ index, r.answer = some index →
      ∃ t, s.responses[index]? = some t ∧ t.id = r.taskId) :
    ∀ r ∈ requests, ∀ index, r.answer = some index →
      ∃ t, s'.responses[index]? = some t ∧ t.id = r.taskId := by
  intro r hr index hindex
  obtain ⟨t, ht, hid⟩ := ha r hr index hindex
  obtain ⟨more, hmore⟩ := responses_step h
  refine ⟨t, ?_, hid⟩
  obtain ⟨hlt, -⟩ := List.getElem?_eq_some_iff.1 ht
  rw [← hmore, List.getElem?_append_left hlt, ht]

/-- **A step of the session** keeps the commands of ended tasks guarded. -/
theorem guarded_session {s s' : SessionState} {l : SessionLabel} {log new : List TaskEvent}
    {requests : List CancelRequest} (hi : SessionInv s log) (hi' : SessionInv s' (log ++ new))
    (he : CommandEffect log s s' l) (hg : Guarded log s.client requests) :
    Guarded (log ++ new) s'.client requests := by
  have hv := hi'.db.valid
  intro id hcommand hended
  cases he with
  | kept hcommands happlied =>
    rw [hcommands] at hcommand
    exact hg id hcommand ((hended.congr happlied).grow hv hi.tasks)
  | bootstrap hreceived htasks hcommands =>
    obtain ⟨task, htask, hterm⟩ := hended.known hv hi'.tasks
    simp [hcommands, reconcileCommands, htask, hterm] at hcommand
  | @event e hnext happlied hends hgoesOn =>
    obtain ⟨x, hx, task, hid, htask, hterm, hle⟩ := hended
    rw [happlied] at hle
    have hxlog : x ∈ log := by
      rcases List.mem_append.1 hx with hx | hx
      · exact hx
      · have hlt := latest_lt hv x hx
        have hle' := le_latest e hnext.mem
        omega
    rcases applied_le_of_next hi.db.valid hnext hxlog hle with rfl | hxle
    · rw [hends ⟨task, htask, hterm⟩, hid, removeCancelCommand_self] at hcommand
      exact absurd rfl hcommand
    · refine hg id ?_ ⟨x, hxlog, task, hid, htask, hterm, hxle⟩
      by_cases hend : EndsTask e
      · rw [hends hend] at hcommand
        by_cases heq : id = e.taskId
        · rw [heq, removeCancelCommand_self] at hcommand
          exact absurd rfl hcommand
        · rwa [removeCancelCommand_other _ heq] at hcommand
      · rwa [hgoesOn hend] at hcommand
  | sessionExpired hcommands => exact absurd (by rw [hcommands]; rfl) hcommand

/-- A request that ended guards no other task. -/
theorem mem_eraseIdx {requests : List CancelRequest} {index : Nat} {request r : CancelRequest}
    (h : requests[index]? = some request) (hr : r ∈ requests) (hne : r.taskId ≠ request.taskId) :
    r ∈ requests.eraseIdx index := by
  obtain ⟨hlt, hget⟩ := List.getElem?_eq_some_iff.1 h
  obtain ⟨j, hj, rfl⟩ := List.mem_iff_getElem.1 hr
  apply List.mem_eraseIdx_iff_getElem.2
  refine ⟨j, hj, ?_, rfl⟩
  rintro rfl
  exact hne (congrArg CancelRequest.taskId hget)

/-- An answer changes no request's task. -/
theorem mem_set {requests : List CancelRequest} {index : Nat} {taskId id : TaskId}
    {answer old : Option Nat} (h : requests[index]? = some ⟨taskId, old⟩) {r : CancelRequest}
    (hr : r ∈ requests) (hid : r.taskId = id) :
    ∃ r ∈ requests.set index ⟨taskId, answer⟩, r.taskId = id := by
  obtain ⟨hlt, hget⟩ := List.getElem?_eq_some_iff.1 h
  obtain ⟨j, hj, rfl⟩ := List.mem_iff_getElem.1 hr
  by_cases hji : index = j
  · subst hji
    rw [hget] at hid
    exact ⟨⟨taskId, answer⟩, List.mem_set hlt _, hid⟩
  · refine ⟨requests[j], ?_, hid⟩
    rw [List.mem_iff_getElem]
    exact ⟨j, by simpa using hj, List.getElem_set_of_ne hji _ _⟩

/-- The commands after a request has ended: those of other tasks are as they
were, and that of its task is gone if the task is over. -/
theorem guarded_ended {log new : List TaskEvent} {c c' : AgentState} {index : Nat}
    {requests : List CancelRequest} {request : CancelRequest} (hv : history.Valid (log ++ new))
    (hi : TasksInv log c) (hrequest : requests[index]? = some request)
    (happlied : c'.appliedEventId = c.appliedEventId)
    (hother : ∀ id, id ≠ request.taskId → c'.cancelByTaskId id = c.cancelByTaskId id)
    (hself : Ended (log ++ new) c' request.taskId → c'.cancelByTaskId request.taskId = none)
    (hg : Guarded log c requests) : Guarded (log ++ new) c' (requests.eraseIdx index) := by
  intro id hcommand hended
  by_cases hid : id = request.taskId
  · subst hid
    exact absurd (hself hended) hcommand
  · rw [hother id hid] at hcommand
    obtain ⟨r, hr, hrid⟩ := hg id hcommand ((hended.congr happlied).grow hv hi)
    exact ⟨r, mem_eraseIdx hrequest hr (by rw [hrid]; exact hid), hrid⟩

/-- A read of a task adds it to the responses, and nothing else. -/
theorem taskRead_spec {s s' : SessionState} {log : List TaskEvent} {id : TaskId}
    (hi : SessionInv s log) (h : sessionNext s (.taskRead id) = some s') :
    s'.client = s.client ∧ ∃ t, t.id = id ∧ s'.responses = s.responses ++ [t] := by
  simp only [sessionNext, loadTask_reflects hi.db] at h
  cases ht : history.replay log id with
  | none =>
    rw [ht] at h
    cases h
  | some t =>
    rw [ht] at h
    cases h
    exact ⟨rfl, t, (valid_rowOf_some hi.db.valid ht).id_eq, rfl⟩

theorem cancelInv_step {s s' : CancelState} {l : CancelLabel} {log : List TaskEvent}
    (hi : CancelInv s log) (h : cancelNext s l = some s') :
    ∃ new, CancelInv s' (log ++ new) := by
  cases l with
  | session label =>
    simp only [cancelNext] at h
    split at h
    · cases h
    · rename_i hlabel
      obtain ⟨session, hsession, rfl⟩ := Option.map_eq_some_iff.1 h
      obtain ⟨⟨new, hi'⟩, -⟩ := sessionInv_step hi.session hsession
      have heffect := commandEffect hi.session (Bool.eq_false_iff.2 hlabel) hsession
      exact ⟨new, hi', answers_step hsession hi.answers,
        guarded_session hi.session hi' heffect hi.guarded⟩
  | started taskId =>
    simp only [cancelNext, Option.some.injEq] at h
    subst h
    have hstep : sessionNext s.session (.view (.cancelStarted taskId)) =
        some (s.session.dispatch (.cancelStarted taskId)) := rfl
    obtain ⟨⟨new, hi'⟩, -⟩ := sessionInv_step hi.session hstep
    refine ⟨new, hi', ?_, ?_⟩
    · intro r hr index hindex
      rcases List.mem_append.1 hr with hr | hr
      · exact answers_step hstep hi.answers r hr index hindex
      · rw [List.mem_singleton.1 hr] at hindex
        cases hindex
    · intro id hcommand hended
      by_cases hid : id = taskId
      · exact ⟨⟨taskId, none⟩, by simp, hid.symm⟩
      · have hold : s.session.client.cancelByTaskId id ≠ none := by
          rwa [show (s.session.dispatch (.cancelStarted taskId)).client.cancelByTaskId id =
            s.session.client.cancelByTaskId id from if_neg hid] at hcommand
        have hended' : Ended (log ++ new) s.session.client id := hended
        obtain ⟨r, hr, hrid⟩ := hi.guarded id hold (hended'.grow hi'.db.valid hi.session.tasks)
        exact ⟨r, by simp [hr], hrid⟩
  | answered index =>
    simp only [cancelNext] at h
    split at h
    · rename_i taskId hrequest
      obtain ⟨session, hsession, rfl⟩ := Option.map_eq_some_iff.1 h
      obtain ⟨⟨new, hi'⟩, -⟩ := sessionInv_step hi.session hsession
      obtain ⟨hclient, t, hid, hresponses⟩ := taskRead_spec hi.session hsession
      refine ⟨new, hi', ?_, ?_⟩
      · intro r hr answer hanswer
        rcases List.mem_or_eq_of_mem_set hr with hr | rfl
        · exact answers_step hsession hi.answers r hr answer hanswer
        · obtain rfl := Option.some.inj hanswer
          exact ⟨t, by simp [hresponses], hid⟩
      · intro id hcommand hended
        rw [hclient] at hcommand
        have hended' := (hended.congr (congrArg AgentState.appliedEventId hclient)).grow
          hi'.db.valid hi.session.tasks
        obtain ⟨r, hr, hrid⟩ := hi.guarded id hcommand hended'
        exact mem_set hrequest hr hrid
    · cases h
  | succeeded index =>
    simp only [cancelNext] at h
    split at h
    · rename_i taskId answer hrequest
      obtain ⟨session, hsession, rfl⟩ := Option.map_eq_some_iff.1 h
      obtain ⟨⟨new, hi'⟩, -⟩ := sessionInv_step hi.session hsession
      obtain ⟨t, ht, hid⟩ := hi.answers _ (List.mem_of_getElem? hrequest) answer rfl
      have hanswers := answers_step hsession hi.answers
      refine ⟨new, hi', fun r hr => hanswers r (List.mem_of_mem_eraseIdx hr), ?_⟩
      simp only [sessionNext, ht, Option.map_some, Option.some.injEq] at hsession
      subst hsession
      have hid : t.id = taskId := hid
      apply guarded_ended hi'.db.valid hi.session.tasks hrequest (applied_cancelSucceeded _ t) ?_ ?_
        hi.guarded
      · intro id hne
        have hne : id ≠ t.id := hid ▸ hne
        rcases cancelSucceeded_cases s.session.client t with ⟨-, hcommands⟩ | ⟨-, hcommands⟩
        · exact (congrFun hcommands id).trans (removeCancelCommand_other _ hne)
        · exact congrFun hcommands id
      · intro hended
        have hknown := hended.known hi'.db.valid hi'.tasks
        rw [← hid] at hknown ⊢
        rcases cancelSucceeded_cases s.session.client t with ⟨-, hcommands⟩ | ⟨hnot, -⟩
        · exact (congrFun hcommands t.id).trans (removeCancelCommand_self _ _)
        · exact absurd hknown hnot
    · cases h
  | failed index error =>
    simp only [cancelNext] at h
    obtain ⟨request, hrequest, rfl⟩ := Option.map_eq_some_iff.1 h
    have hstep : sessionNext s.session (.view (.cancelFailed request.taskId error)) =
        some (s.session.dispatch (.cancelFailed request.taskId error)) := rfl
    obtain ⟨⟨new, hi'⟩, -⟩ := sessionInv_step hi.session hstep
    have hanswers := answers_step hstep hi.answers
    obtain ⟨happlied, hcases⟩ := cancelFailed_cases s.session.client request.taskId error
    refine ⟨new, hi', fun r hr => hanswers r (List.mem_of_mem_eraseIdx hr), ?_⟩
    apply guarded_ended hi'.db.valid hi.session.tasks hrequest happlied ?_ ?_ hi.guarded
    · intro id hne
      rcases hcases with ⟨-, hcommands⟩ | ⟨-, hcommands⟩
      · exact (congrFun hcommands id).trans (removeCancelCommand_other _ hne)
      · exact (congrFun hcommands id).trans (Rec.put_other _ _ hne)
    · intro hended
      have hold := (hended.congr happlied).grow hi'.db.valid hi.session.tasks
      have hknown := hold.known hi.session.db.valid hi.session.tasks
      rcases hcases with ⟨-, hcommands⟩ | ⟨hnot, -⟩
      · exact (congrFun hcommands request.taskId).trans (removeCancelCommand_self _ _)
      · exact absurd hknown hnot
  | expired index =>
    simp only [cancelNext] at h
    obtain ⟨request, -, rfl⟩ := Option.map_eq_some_iff.1 h
    have hstep : sessionNext s.session (.view .sessionExpired) =
        some (s.session.dispatch .sessionExpired) := rfl
    obtain ⟨⟨new, hi'⟩, -⟩ := sessionInv_step hi.session hstep
    have hanswers := answers_step hstep hi.answers
    refine ⟨new, hi', fun r hr => hanswers r (List.mem_of_mem_eraseIdx hr), ?_⟩
    intro id hcommand
    exact absurd rfl hcommand

theorem cancelInv_inductive (repositories : List RepositoryRow) :
    (cancelSession repositories).Inductive fun s => ∃ log, CancelInv s log where
  init := by
    intro s hs
    subst hs
    refine ⟨[], sessionInv_init repositories, by simp, ?_⟩
    intro id hcommand
    exact absurd rfl hcommand
  step := by
    intro s l s' ⟨log, hi⟩ h
    obtain ⟨new, hi'⟩ := cancelInv_step hi h
    exact ⟨log ++ new, hi'⟩

theorem cancelInv_reachable {repositories : List RepositoryRow} {s : CancelState}
    (h : (cancelSession repositories).Reachable s) : ∃ log, CancelInv s log :=
  (cancelInv_inductive repositories).reachable s h

/-! ## Pending commands -/

/-- What may take a pending command from a task that goes on. -/
inductive RemovesPending (s : CancelState) (id : TaskId) : CancelLabel → Prop where
  | failed {index : Nat} {request : CancelRequest} {error : CommandError}
      (ended : s.requests[index]? = some request) (names : request.taskId = id) :
      RemovesPending s id (.failed index error)
  | bootstrap {index : Nat} {b : BootstrapResponse}
      (received : s.session.bootstraps[index]? = some b) (lacks : ∀ task ∈ b.tasks, task.id ≠ id) :
      RemovesPending s id (.session (.bootstrapReceived index))
  | sessionExpired : RemovesPending s id (.session (.view .sessionExpired))
  | expired {index : Nat} : RemovesPending s id (.expired index)

/-- A step of the session takes a pending command from an ended task, or for
one of these reasons. -/
theorem removes_session {s s' : CancelState} {l : SessionLabel} {log new : List TaskEvent}
    {id : TaskId} (hi : SessionInv s.session log) (hi' : SessionInv s'.session (log ++ new))
    (he : CommandEffect log s.session s'.session l)
    (hpending : s.session.client.cancelByTaskId id = some .pending)
    (hgone : s'.session.client.cancelByTaskId id ≠ some .pending)
    (hgoesOn : ¬KnownEnded s'.session.client id) : RemovesPending s id (.session l) := by
  cases he with
  | kept hcommands happlied => exact absurd (by rw [hcommands, hpending]) hgone
  | @bootstrap index b hreceived htasks hcommands =>
    refine .bootstrap hreceived ?_
    intro task htask hid
    have hlookup : s'.session.client.tasksById id = some task := by
      rw [htasks]
      have hnodup := (hi.bootstraps b (List.mem_of_getElem? hreceived)).nodup
      exact (normalizeById_spec Task.id hnodup id task).2 ⟨htask, hid⟩
    have hterm : isTerminalTask task = false :=
      Bool.eq_false_iff.2 fun hterm => hgoesOn ⟨task, hlookup, hterm⟩
    apply hgone
    simp [hcommands, reconcileCommands, hlookup, hterm, hpending]
  | @event e hnext happlied hends hgoesOn' =>
    exfalso
    by_cases hend : EndsTask e
    · by_cases hid : id = e.taskId
      · obtain ⟨task, htask, hterm⟩ := hend
        have hended : Ended (log ++ new) s'.session.client id :=
          ⟨e, List.mem_append_left new hnext.mem, task, hid.symm, htask, hterm, by rw [happlied]⟩
        exact hgoesOn (hended.known hi'.db.valid hi'.tasks)
      · apply hgone
        rw [hends hend, removeCancelCommand_other _ hid, hpending]
    · apply hgone
      rw [hgoesOn' hend, hpending]
  | sessionExpired hcommands => exact .sessionExpired

theorem removes_pending {s s' : CancelState} {l : CancelLabel} {log : List TaskEvent} {id : TaskId}
    (hi : CancelInv s log) (h : cancelNext s l = some s')
    (hpending : s.session.client.cancelByTaskId id = some .pending)
    (hgone : s'.session.client.cancelByTaskId id ≠ some .pending)
    (hgoesOn : ¬KnownEnded s'.session.client id) : RemovesPending s id l := by
  cases l with
  | session label =>
    simp only [cancelNext] at h
    split at h
    · cases h
    · rename_i hlabel
      obtain ⟨session, hsession, rfl⟩ := Option.map_eq_some_iff.1 h
      obtain ⟨⟨new, hi'⟩, -⟩ := sessionInv_step hi.session hsession
      have heffect := commandEffect hi.session (Bool.eq_false_iff.2 hlabel) hsession
      exact removes_session hi.session hi' heffect hpending hgone hgoesOn
  | started taskId =>
    simp only [cancelNext, Option.some.injEq] at h
    subst h
    refine absurd ?_ hgone
    show (if id = taskId then some CancelCommandState.pending else _) = _
    rw [hpending, ite_self]
  | answered index =>
    simp only [cancelNext] at h
    split at h
    · obtain ⟨session, hsession, rfl⟩ := Option.map_eq_some_iff.1 h
      have hclient := (taskRead_spec hi.session hsession).1
      exact absurd (by rw [hclient, hpending]) hgone
    · cases h
  | succeeded index =>
    simp only [cancelNext] at h
    split at h
    · rename_i taskId answer hrequest
      obtain ⟨session, hsession, rfl⟩ := Option.map_eq_some_iff.1 h
      obtain ⟨t, ht, -⟩ := hi.answers _ (List.mem_of_getElem? hrequest) answer rfl
      simp only [sessionNext, ht, Option.map_some, Option.some.injEq] at hsession
      subst hsession
      exfalso
      rcases cancelSucceeded_cases s.session.client t with ⟨hknown, hcommands⟩ | ⟨-, hcommands⟩
      · by_cases hid : id = t.id
        · exact hgoesOn (hid ▸ hknown)
        · apply hgone
          exact (congrFun hcommands id).trans ((removeCancelCommand_other _ hid).trans hpending)
      · exact hgone ((congrFun hcommands id).trans hpending)
    · cases h
  | failed index error =>
    simp only [cancelNext] at h
    obtain ⟨request, hrequest, rfl⟩ := Option.map_eq_some_iff.1 h
    obtain ⟨-, hcases⟩ := cancelFailed_cases s.session.client request.taskId error
    by_cases hid : id = request.taskId
    · exact .failed hrequest hid.symm
    · refine absurd ?_ hgone
      rcases hcases with ⟨-, hcommands⟩ | ⟨-, hcommands⟩
      · exact (congrFun hcommands id).trans ((removeCancelCommand_other _ hid).trans hpending)
      · exact (congrFun hcommands id).trans ((Rec.put_other _ _ hid).trans hpending)
  | expired index => exact .expired

/-- **Cancel commands.** A task that is known to be over, with its end applied
and no request under way, has no command; and a step that takes the pending
command of a task which is not over is a failed cancel of it, a bootstrap
without it, or the end of the session. -/
theorem cancel_commands {repositories : List RepositoryRow} {s : CancelState}
    (h : (cancelSession repositories).Reachable s) :
    (∃ log, Reflects s.session.db log ∧ ∀ id, KnownEnded s.session.client id →
      (∀ r ∈ s.requests, r.taskId ≠ id) → Ended log s.session.client id →
        s.session.client.cancelByTaskId id = none) ∧
    ∀ l s', (cancelSession repositories).step s l s' → ∀ id,
      s.session.client.cancelByTaskId id = some .pending →
      s'.session.client.cancelByTaskId id ≠ some .pending →
      ¬KnownEnded s'.session.client id → RemovesPending s id l := by
  obtain ⟨log, hi⟩ := cancelInv_reachable h
  refine ⟨⟨log, hi.session.db, ?_⟩, ?_⟩
  · intro id _ hnone hended
    by_contra hcommand
    obtain ⟨r, hr, hid⟩ := hi.guarded id hcommand hended
    exact hnone r hr hid
  · intro l s' hstep id hpending hgone hgoesOn
    exact removes_pending hi hstep hpending hgone hgoesOn

/-- A queued task is cancelled: the request is answered with its end, which the
stream delivers before the answer arrives. -/
def sampleCancel : List CancelLabel :=
  [.session (.call ⟨sampleEnv, .createTask ⟨⟨2⟩, ⟨3⟩, " p "⟩, false⟩),
   .session (.bootstrapRead ⟨.ready, 0⟩), .session (.bootstrapReceived 0), .started ⟨1⟩,
   .session (.call ⟨sampleEnv, .transitionWithEvent ⟨1⟩ .queued .cancelled, false⟩),
   .answered 0, .session .eventReceived, .succeeded 0]

theorem sampleCancel_exec : ∃ s s',
    LTS.exec cancelNext ⟨.init [sampleRepository], []⟩ (sampleCancel.take 4) = some s ∧
    LTS.exec cancelNext ⟨.init [sampleRepository], []⟩ sampleCancel = some s' ∧
    s.session.client.cancelByTaskId ⟨1⟩ = some .pending ∧
    (s.session.client.tasksById ⟨1⟩).map isTerminalTask = some false ∧
    (s'.session.client.tasksById ⟨1⟩).map isTerminalTask = some true ∧ s'.requests = [] ∧
    ∃ row ∈ s'.session.db.events, ∃ e, eventFromRecord row = .ok e ∧ e.taskId = ⟨1⟩ ∧
      e.payload.task?.map isTerminalTask = some true ∧ e.id.get ≤ s'.session.client.appliedEventId :=
  ⟨_, _, rfl, rfl, by decide, by decide, by decide, by decide, _,
    List.mem_cons_of_mem _ List.mem_cons_self, _, rfl, by decide, by decide, by decide⟩

/-- The end of the task was applied. -/
theorem ended_of_row {log : List TaskEvent} {s : CancelState}
    (hlog : Reflects s.session.db log) {row : EventRow} (hrow : row ∈ s.session.db.events)
    {e : TaskEvent} (he : eventFromRecord row = .ok e) {id : TaskId} (hid : e.taskId = id)
    (hterm : e.payload.task?.map isTerminalTask = some true)
    (hle : e.id.get ≤ s.session.client.appliedEventId) : Ended log s.session.client id := by
  rw [hlog.events] at hrow
  obtain ⟨e', he', rfl⟩ := List.mem_map.1 hrow
  obtain rfl := Except.ok.inj
    (he.symm.trans (eventFromRecord_ofEvent (valid_eventOk hlog.valid e' he')))
  obtain ⟨task, htask, hterm⟩ := Option.map_eq_some_iff.1 hterm
  exact ⟨e, he', task, hid, htask, hterm, hle⟩

theorem cancel_commands_sample :
    (∃ s log, (cancelSession [sampleRepository]).Reachable s ∧ KnownEnded s.session.client ⟨1⟩ ∧
      Reflects s.session.db log ∧ Ended log s.session.client ⟨1⟩ ∧
      s.session.client.cancelByTaskId ⟨1⟩ = none) ∧
    ∃ s s', (cancelSession [sampleRepository]).Reachable s ∧
      (cancelSession [sampleRepository]).step s (.session (.view .sessionExpired)) s' ∧
      s.session.client.cancelByTaskId ⟨1⟩ = some .pending ∧
      RemovesPending s ⟨1⟩ (.session (.view .sessionExpired)) := by
  obtain ⟨s, s', hs, hs', hpending, hgoesOn, hended, hrequests, row, hrow, e, he, hid, hterm, hle⟩ :=
    sampleCancel_exec
  have hr : (cancelSession [sampleRepository]).Reachable s := LTS.reachable_of_exec rfl hs
  have hr' : (cancelSession [sampleRepository]).Reachable s' := LTS.reachable_of_exec rfl hs'
  constructor
  · obtain ⟨task, htask, hknown⟩ := Option.map_eq_some_iff.1 hended
    obtain ⟨log, hlog, hnone⟩ := (cancel_commands hr').1
    have hover := ended_of_row hlog hrow he hid hterm hle
    exact ⟨s', log, hr', ⟨task, htask, hknown⟩, hlog, hover,
      hnone ⟨1⟩ ⟨task, htask, hknown⟩ (by simp [hrequests]) hover⟩
  · have hstep : (cancelSession [sampleRepository]).step s (.session (.view .sessionExpired))
        { s with session := s.session.dispatch .sessionExpired } := rfl
    refine ⟨s, _, hr, hstep, hpending, (cancel_commands hr).2 _ _ hstep ⟨1⟩ hpending ?_ ?_⟩
    · exact nofun
    · obtain ⟨task, htask, hterm⟩ := Option.map_eq_some_iff.1 hgoesOn
      rintro ⟨task', htask', hterm'⟩
      obtain rfl := Option.some.inj (htask.symm.trans htask')
      rw [hterm] at hterm'
      cases hterm'

end CodingAgent.L5.Web
