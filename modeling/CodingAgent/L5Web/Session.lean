import CodingAgent.Core.Lts
import CodingAgent.L5Web.Selection

/-!
# A client session against a running store (`web/src/state/useAgentState.ts`)

The server runs any store calls; the client selects tasks, installs
bootstraps, applies the events of its stream in order and receives REST and
detail answers. Every answer is computed from the database at the moment the
server reads it and arrives at any later time, in any order; bootstrap and
REST answers may also arrive more than once.

The detail request follows the effect of the hook: it is issued when a render
with new dependencies finds a selection that loads, and a render with other
dependencies disposes it.

* `sessionInv_step`, `sessionInv_reachable`: the invariant, over every step
  and every reachable state.
* `selectedDetail_coherent`, `taskSummaries_true`: what it says of the
  selected detail and of the task summaries.
-/
namespace CodingAgent.L5.Web
open CodingAgent.L1.Domain CodingAgent.L2 CodingAgent.L2.Store CodingAgent.IdLog

/-- The dependencies of the detail effect. -/
structure EffectDeps where
  detailLoading : Bool
  selectedTaskId : Option TaskId
  selectionGeneration : Nat
  deriving DecidableEq, Repr

structure SessionState where
  db : Db
  client : AgentState
  /-- bootstrap documents the server has answered with -/
  bootstraps : List BootstrapResponse
  /-- task bodies of answered create, cancel and retry requests -/
  responses : List Task
  deps : EffectDeps
  request : Option DetailRequest

inductive SessionLabel where
  | call (call : Call)
  | bootstrapRead (service : ServiceStateSnapshot)
  | taskRead (taskId : TaskId)
  | detailRead
  | bootstrapReceived (index : Nat)
  | taskUpserted (index : Nat)
  | cancelSucceeded (index : Nat)
  | eventReceived
  | taskSelected (taskId : TaskId)
  | rendered
  | detailReceived
  | detailFailed (message : String)
  | view (action : AgentAction)

/-- Actions that touch neither tasks nor the selection. -/
def AgentAction.isView : AgentAction → Bool
  | .bootstrapStarted | .bootstrapFailed .. | .connectionChanged .. | .sessionExpired
  | .repositoryUpserted _ | .serviceReceived .. | .cancelStarted _ | .cancelFailed .. => true
  | .bootstrapReceived _ | .taskUpserted _ | .taskSelected _ | .detailReceived ..
  | .detailFailed .. | .eventReceived _ | .eventUnknown .. | .cancelSucceeded _ => false

def SessionState.dispatch (s : SessionState) (action : AgentAction) : SessionState :=
  { s with client := agentReducer s.client action }

/-- The effect after a render.
mirrors web/src/state/useAgentState.ts:296-333 -/
def SessionState.render (s : SessionState) : SessionState :=
  let deps : EffectDeps :=
    ⟨s.client.detailLoading, s.client.selectedTaskId, s.client.selectionGeneration⟩
  if deps = s.deps then s
  else
    let request : Option DetailRequest :=
      match s.client.selectedTaskId with
      | some taskId =>
        if s.client.detailLoading then some ⟨taskId, s.client.selectionGeneration, none⟩ else none
      | none => none
    { s with deps, request }

def BootstrapResponse.ofSnapshot (snapshot : BootstrapSnapshot) (service : ServiceStateSnapshot) :
    BootstrapResponse :=
  { repositories := snapshot.repositories, tasks := snapshot.tasks,
    latestEventId := snapshot.latestEventId, serviceState := service.state,
    serviceStateGeneration := service.generation }

/-- One step; `none` where the label is not enabled. -/
def sessionNext (s : SessionState) : SessionLabel → Option SessionState
  | .call call => some { s with db := (call.run s.db).2 }
  | .bootstrapRead service =>
    match bootstrapSnapshot s.db with
    | .ok (snapshot, _) =>
      some { s with bootstraps := s.bootstraps ++ [.ofSnapshot snapshot service] }
    | .error _ => none
  | .taskRead taskId =>
    match loadTask taskId s.db with
    | .ok (some task, _) => some { s with responses := s.responses ++ [task] }
    | .ok (none, _) | .error _ => none
  | .detailRead =>
    match s.request, s.request.map fun r => taskDetail r.taskId s.db with
    | some r, some (.ok (answer, _)) => some { s with request := some { r with response := some answer } }
    | _, _ => none
  | .bootstrapReceived index =>
    s.bootstraps[index]?.map fun bootstrap => s.dispatch (.bootstrapReceived bootstrap)
  | .taskUpserted index => s.responses[index]?.map fun task => s.dispatch (.taskUpserted task)
  | .cancelSucceeded index =>
    s.responses[index]?.map fun task => s.dispatch (.cancelSucceeded task)
  | .eventReceived =>
    match eventsAfter s.client.appliedEventId 1 s.db with
    | .ok (page, _) => page.events.head?.map fun event => s.dispatch (.eventReceived event)
    | .error _ => none
  | .taskSelected taskId => some (s.dispatch (.taskSelected taskId))
  | .rendered => some s.render
  | .detailReceived =>
    match s.request with
    | some ⟨taskId, generation, some (some detail)⟩ =>
      some { s.dispatch (.detailReceived taskId generation detail) with request := none }
    | _ => none
  | .detailFailed message =>
    s.request.map fun r =>
      { s.dispatch (.detailFailed r.taskId r.generation message) with request := none }
  | .view action => if action.isView then some (s.dispatch action) else none

def SessionState.init (repositories : List RepositoryRow) : SessionState :=
  { db := .migrated repositories, client := initialAgentState, bootstraps := [], responses := [],
    deps := ⟨false, none, 0⟩, request := none }

def session (repositories : List RepositoryRow) : LTS SessionState SessionLabel :=
  LTS.ofFn (fun s => s = .init repositories) sessionNext

/-! ## Bootstraps -/

/-- `normalizeById` of values with distinct keys is their lookup. -/
theorem normalizeById_spec {K T : Type} [DecidableEq K] (key : T → K) {values : List T}
    (hn : (values.map key).Nodup) (k : K) (v : T) :
    (normalizeById key values).1 k = some v ↔ v ∈ values ∧ key v = k := by
  induction values using List.reverseRecOn with
  | nil => simp [normalizeById, Rec.empty]
  | append_singleton values x ih =>
    rw [List.map_append, List.nodup_append] at hn
    obtain ⟨hn, -, hdis⟩ := hn
    have hx : ∀ y ∈ values, key y ≠ key x := fun y hy =>
      hdis _ (List.mem_map_of_mem hy) _ (by simp)
    have hstep : (normalizeById key (values ++ [x])).1 =
        (normalizeById key values).1.put (key x) x := by
      simp [normalizeById, List.foldl_append]
    rw [hstep]
    by_cases hk : k = key x
    · subst hk
      rw [Rec.put_self]
      constructor
      · intro h; cases h; exact ⟨by simp, rfl⟩
      · rintro ⟨hv, hkey⟩
        rcases List.mem_append.1 hv with hv | hv
        · exact absurd hkey (hx v hv)
        · rw [List.mem_singleton.1 hv]
    · rw [Rec.put_other _ x hk, ih hn]
      constructor
      · rintro ⟨hv, hkey⟩; exact ⟨List.mem_append_left [x] hv, hkey⟩
      · rintro ⟨hv, hkey⟩
        rcases List.mem_append.1 hv with hv | hv
        · exact ⟨hv, hkey⟩
        · rw [List.mem_singleton.1 hv] at hkey
          exact absurd hkey.symm hk

/-- A bootstrap document is the server's rows at its cursor. -/
structure BootTrue (log : List TaskEvent) (b : BootstrapResponse) : Prop where
  bound : b.latestEventId ≤ latest log
  rows : ∀ t, t ∈ b.tasks ↔ rowAt log t.id b.latestEventId = some t
  nodup : (b.tasks.map (·.id)).Nodup

theorem bootTrue_grow {log new : List TaskEvent} (h : history.Valid (log ++ new))
    {b : BootstrapResponse} (hb : BootTrue log b) : BootTrue (log ++ new) b where
  bound := Nat.le_trans hb.bound (latest_le fun e he => le_latest e (List.mem_append_left new he))
  rows t := by rw [rowAt_grow h t.id hb.bound]; exact hb.rows t
  nodup := hb.nodup

theorem tasksInv_bootstrap {log : List TaskEvent} (h : history.Valid log) (c : AgentState)
    {b : BootstrapResponse} (hb : BootTrue log b) : TasksInv log (installBootstrap c b) where
  applied := hb.bound
  known := by
    intro e he hle
    have hle : e.id.get ≤ b.latestEventId := hle
    cases hr : rowAt log e.taskId b.latestEventId with
    | none =>
      have hnil := valid_replay_none (h.cut b.latestEventId) hr
      have hmem : e ∈ history.streamOf (history.cut b.latestEventId log) e.taskId :=
        EventModel.mem_streamOf.2 ⟨EventModel.mem_cut.2 ⟨he, hle⟩, rfl⟩
      rw [hnil] at hmem
      cases hmem
    | some t =>
      have hid := (rowAt_version h hr).id_eq
      have hin : t ∈ b.tasks := (hb.rows t).2 (by rw [hid]; exact hr)
      have := (normalizeById_spec Task.id hb.nodup e.taskId t).2 ⟨hin, hid⟩
      show (normalizeById Task.id b.tasks).1 e.taskId ≠ none
      rw [this]; simp
  rows := by
    intro id t ht
    obtain ⟨hin, hid⟩ := (normalizeById_spec Task.id hb.nodup id t).1 ht
    have hr := (hb.rows t).1 hin
    exact ⟨hid, rowTrue_of_rowAt h hr, fun e he htid hle =>
      (rowAt_version h hr).last e he htid hle⟩

/-! ## The invariant -/

structure SessionInv (s : SessionState) (log : List TaskEvent) : Prop where
  db : Reflects s.db log
  tasks : TasksInv log s.client
  selection : SelectionInv log s.client s.request
  bootstraps : ∀ b ∈ s.bootstraps, BootTrue log b
  responses : ∀ t ∈ s.responses, RowTrue log t

theorem sessionInv_init (repositories : List RepositoryRow) :
    SessionInv (.init repositories) [] where
  db := reflects_migrated repositories
  tasks := by
    refine ⟨Nat.le_refl 0, by simp, ?_⟩
    intro id t ht; cases ht
  selection := by
    refine ⟨?_, ?_, ?_, ?_⟩
    · intro d hd; cases hd
    · intro hl; cases hl
    · intro _ r hr; cases hr
    · intro r hr; cases hr
  bootstraps := by simp [SessionState.init]
  responses := by simp [SessionState.init]

/-- A view action leaves tasks and selection alone. -/
theorem view_spec {a : AgentAction} (h : a.isView = true) (c : AgentState) :
    (agentReducer c a).tasksById = c.tasksById ∧ SameSelection c (agentReducer c a) := by
  cases a with
  | bootstrapStarted => exact ⟨rfl, rfl, rfl, rfl, rfl, rfl, rfl⟩
  | bootstrapFailed reason protocol => exact ⟨rfl, rfl, rfl, rfl, rfl, rfl, rfl⟩
  | connectionChanged connection reason => exact ⟨rfl, rfl, rfl, rfl, rfl, rfl, rfl⟩
  | sessionExpired => exact ⟨rfl, rfl, rfl, rfl, rfl, rfl, rfl⟩
  | repositoryUpserted repository => exact ⟨rfl, rfl, rfl, rfl, rfl, rfl, rfl⟩
  | serviceReceived state generation =>
    simp only [agentReducer]
    split <;> exact ⟨rfl, rfl, rfl, rfl, rfl, rfl, rfl⟩
  | cancelStarted taskId => exact ⟨rfl, rfl, rfl, rfl, rfl, rfl, rfl⟩
  | cancelFailed taskId error =>
    simp only [agentReducer, reduceCancelFailed]
    split
    · split <;> exact ⟨rfl, rfl, rfl, rfl, rfl, rfl, rfl⟩
    · exact ⟨rfl, rfl, rfl, rfl, rfl, rfl, rfl⟩
  | bootstrapReceived _ | taskUpserted _ | taskSelected _ | detailReceived _ _ _
  | detailFailed _ _ _ | eventReceived _ | eventUnknown _ _ _ | cancelSucceeded _ => cases h

theorem sameSelection_refl (c : AgentState) : SameSelection c c := ⟨rfl, rfl, rfl, rfl, rfl, rfl⟩

theorem sameSelection_withTask (c : AgentState) (t : Task) : SameSelection c (withTask c t) :=
  ⟨rfl, rfl, rfl, rfl, rfl, rfl⟩

theorem sameSelection_upsert (c : AgentState) (t : Task) : SameSelection c (upsertRestTask c t) := by
  rcases upsertRestTask_cases c t with h | ⟨h, -⟩
  · rw [h]; exact sameSelection_refl c
  · rw [h]; exact sameSelection_withTask c t

theorem sameSelection_summary (c : AgentState) (e : TaskEvent) :
    SameSelection c (updateSummaryForEvent c e) := by
  unfold updateSummaryForEvent
  repeat' split
  all_goals exact ⟨rfl, rfl, rfl, rfl, rfl, rfl⟩

/-- The event the stream delivers is the next one of the log. -/
theorem next_of_page {db db' : Db} {log : List TaskEvent} {after : Nat} {page : EventPage}
    {e : TaskEvent} (h : Reflects db log) (hp : eventsAfter after 1 db = .ok (page, db'))
    (he : page.events.head? = some e) : NextEvent log after e := by
  rw [eventPage_reflects h] at hp
  cases hp
  have hc := contig_filter h.valid.increasing after
  cases hf : log.filter fun x => after < x.id.get with
  | nil => rw [hf] at he; cases he
  | cons x rest =>
    rw [hf] at he
    have hx : x = e := by simpa [limitAsI64] using he
    subst hx
    have hf' : (log.filter fun x => decide (after < history.key x)) = x :: rest := hf
    rw [hf'] at hc
    exact hc.1

/-- The whole reducer step of an event in order. -/
theorem reduceEvent_inv {log : List TaskEvent} {c : AgentState} {request : Option DetailRequest}
    {e : TaskEvent} (h : history.Valid log) (ht : TasksInv log c)
    (hs : SelectionInv log c request) (hn : NextEvent log c.appliedEventId e) :
    TasksInv log (reducePersistedEvent c e) ∧ Newer c (reducePersistedEvent c e) ∧
      SelectionInv log (reducePersistedEvent c e) request := by
  have hschema : e.schemaVersion = supportedSchemaVersion := (valid_eventOk h e hn.mem).schema
  have hlt : c.appliedEventId < e.id.get := hn.lt
  have hsum := sameSelection_summary c e
  have hred : ∃ commands, reducePersistedEvent c e = { updateSummaryForEvent c e with
      selectedDetail := (updateSelection c e).1
      liveBufferByTaskId := (updateSelection c e).2
      appliedEventId := e.id.get
      cancelByTaskId := commands } := by
    unfold reducePersistedEvent
    rw [if_neg (by simp [hschema]), if_neg (by omega), if_neg (by omega)]
    exact ⟨_, rfl⟩
  obtain ⟨commands, hred⟩ := hred
  have htasks : (reducePersistedEvent c e).tasksById = (updateSummaryForEvent c e).tasksById := by
    rw [hred]
  have happ : (reducePersistedEvent c e).appliedEventId = e.id.get := by rw [hred]
  obtain ⟨hti, hnew⟩ := tasksInv_event h ht hn htasks happ
  refine ⟨hti, hnew, selectionInv_event h hs hn ?_ ?_ ?_ ?_ ?_ happ⟩
  all_goals rw [hred]
  · exact hsum.selected
  · exact hsum.generation
  · exact hsum.loading

/-- An answer that the selection accepts, or one it ignores. -/
theorem installDetail_inv {log : List TaskEvent} {c : AgentState} {r : DetailRequest}
    {d : TaskDetail} (h : history.Valid log) (ht : TasksInv log c)
    (hs : SelectionInv log c (some r)) (hr : r.response = some (some d)) :
    TasksInv log (installDetail c r.taskId r.generation d) ∧
      Newer c (installDetail c r.taskId r.generation d) ∧
      SelectionInv log (installDetail c r.taskId r.generation d) none := by
  unfold installDetail
  split
  · exact ⟨ht, newer_congr rfl, hs.drop⟩
  · rename_i hacc
    rw [not_or, not_not, not_not] at hacc
    obtain ⟨hsel, hgen⟩ := hacc
    obtain ⟨installed, heq, hid, hcoh⟩ := install_spec h hs hr hsel hgen.symm
    obtain ⟨htrue, hcov⟩ := coherent_task h hcoh
    simp only [heq]
    have hselection : ∀ c' : AgentState, SameSelection c c' → SelectionInv log
        { c' with selectedDetail := some installed, detailLoading := false, detailError := none,
                  liveBufferByTaskId := c.liveBufferByTaskId.put r.taskId [] } none := by
      intro c' hsame
      refine .ofNone ?_ (by simp)
      intro d' hd'
      cases hd'
      exact ⟨by rw [hid]; exact hsame.selected.trans hsel, rfl, by rw [hsame.applied]; exact hcoh⟩
    have hkeep : TasksInv log c ∧ Newer c c := ⟨ht, newer_congr rfl⟩
    have hwith : (∀ existing, c.tasksById r.taskId = some existing →
        existing.lastEventId.get ≤ installed.task.lastEventId.get) →
        TasksInv log (withTask c installed.task) ∧ Newer c (withTask c installed.task) := by
      intro hle
      refine ⟨tasksInv_withTask ht htrue hcov, newer_withTask ?_⟩
      rw [hid]; exact hle
    cases hex : c.tasksById r.taskId with
    | none =>
      obtain ⟨hti, hnew⟩ := hwith (by rw [hex]; simp)
      exact ⟨tasksInv_congr hti rfl rfl, hnew, hselection _ (sameSelection_withTask c _)⟩
    | some existing =>
      simp only
      split
      · exact ⟨tasksInv_congr ht rfl rfl, newer_congr rfl, hselection c (sameSelection_refl c)⟩
      · rename_i hle
        obtain ⟨hti, hnew⟩ := hwith fun x hx => by
          rw [hex] at hx; cases hx; omega
        exact ⟨tasksInv_congr hti rfl rfl, hnew, hselection _ (sameSelection_withTask c _)⟩

theorem detailFailed_inv {log : List TaskEvent} {c : AgentState} {r : DetailRequest}
    (hs : SelectionInv log c (some r)) (message : String) :
    SelectionInv log (agentReducer c (.detailFailed r.taskId r.generation message)) none := by
  simp only [agentReducer]
  split
  · exact hs.drop
  · refine .ofNone ?_ (by simp)
    intro d hd
    obtain ⟨hsel, -, hc⟩ := hs.detail d hd
    exact ⟨hsel, rfl, hc⟩

theorem render_inv {s : SessionState} {log : List TaskEvent}
    (hs : SelectionInv log s.client s.request) :
    SelectionInv log s.render.client s.render.request := by
  unfold SessionState.render
  simp only
  split
  · exact hs
  · cases hsel : s.client.selectedTaskId with
    | none => exact hs.drop
    | some id =>
      simp only
      split
      · rename_i hl
        refine ⟨hs.detail, fun _ => ?_, ?_, ?_⟩
        · obtain ⟨id', since, hload⟩ := hs.loading hl
          refine ⟨id', since, hload.selected, hload.since_le, hload.buffer, ?_⟩
          intro r d hr _ _ hresp
          cases hr; cases hresp
        · intro hf; rw [hl] at hf; cases hf
        · intro r hr; cases hr; exact Nat.le_refl _
      · exact hs.drop

/-- **One step keeps the invariant**, and only a bootstrap makes a summary
older. -/
theorem sessionInv_step {s s' : SessionState} {l : SessionLabel} {log : List TaskEvent}
    (hi : SessionInv s log) (h : sessionNext s l = some s') :
    (∃ new, SessionInv s' (log ++ new)) ∧
      ((∀ index, l ≠ .bootstrapReceived index) → Newer s.client s'.client) := by
  have hv := hi.db.valid
  have same : ∀ s'', SessionInv s'' log → ∃ new, SessionInv s'' (log ++ new) :=
    fun s'' hs => ⟨[], by rw [List.append_nil]; exact hs⟩
  cases l with
  | call call =>
    simp only [sessionNext, Option.some.injEq] at h
    subst h
    obtain ⟨new, hg⟩ := Call.run_reflects hi.db call
    have hgv := hg.reflects.valid
    exact ⟨⟨new, hg.reflects, tasksInv_grow hgv hi.tasks,
      selectionInv_grow hgv hi.tasks.applied hi.selection,
      fun b hb => bootTrue_grow hgv (hi.bootstraps b hb),
      fun t ht => rowTrue_grow hgv (hi.responses t ht)⟩, fun _ => newer_congr rfl⟩
  | bootstrapRead service =>
    obtain ⟨snapshot, hok, hlatest, hrows, hnodup⟩ := bootstrapSnapshot_reflects hi.db
    simp only [sessionNext, hok, Option.some.injEq] at h
    subst h
    refine ⟨same _ ⟨hi.db, hi.tasks, hi.selection, ?_, hi.responses⟩, fun _ => newer_congr rfl⟩
    intro b hb
    rcases List.mem_append.1 hb with hb | hb
    · exact hi.bootstraps b hb
    · rw [List.mem_singleton.1 hb]
      refine ⟨by rw [BootstrapResponse.ofSnapshot, hlatest], fun t => ?_, hnodup⟩
      simp only [BootstrapResponse.ofSnapshot, hlatest, rowAt_latest]
      exact hrows t
  | taskRead taskId =>
    simp only [sessionNext, loadTask_reflects hi.db] at h
    cases ht : history.replay log taskId with
    | none => rw [ht] at h; cases h
    | some task =>
      rw [ht] at h
      simp only [Option.some.injEq] at h
      subst h
      refine ⟨same _ ⟨hi.db, hi.tasks, hi.selection, hi.bootstraps, ?_⟩, fun _ => newer_congr rfl⟩
      intro t hmem
      rcases List.mem_append.1 hmem with hmem | hmem
      · exact hi.responses t hmem
      · rw [List.mem_singleton.1 hmem]
        rw [← rowAt_latest] at ht
        exact rowTrue_of_rowAt hv ht
  | detailRead =>
    cases hreq : s.request with
    | none => simp [sessionNext, hreq] at h
    | some r =>
      simp only [sessionNext, hreq, Option.map_some, taskDetail_reflects hi.db,
        Option.some.injEq] at h
      subst h
      have hsel := hi.selection
      rw [hreq] at hsel
      refine ⟨same _ ⟨hi.db, hi.tasks, ⟨hsel.detail, ?_, ?_, ?_⟩, hi.bootstraps, hi.responses⟩,
        fun _ => newer_congr rfl⟩
      · intro hl
        obtain ⟨id, since, hload⟩ := hsel.loading hl
        refine ⟨id, since, hload.selected, hload.since_le, hload.buffer, ?_⟩
        intro r' d hr' _ hid hresp
        cases hr'
        simp only [Option.some.injEq] at hresp
        have hid : r.taskId = id := hid
        rw [hid] at hresp
        have hcur := detailAt_cursor hresp
        refine ⟨?_, by rw [hcur]; exact hresp, by rw [hcur]⟩
        rw [hcur]
        exact Nat.le_trans hload.since_le hi.tasks.applied
      · intro hl x hx
        cases hx
        exact hsel.idle hl r rfl
      · intro x hx
        cases hx
        exact hsel.generation r rfl
  | bootstrapReceived index =>
    simp only [sessionNext, Option.map_eq_some_iff] at h
    obtain ⟨b, hb, rfl⟩ := h
    have htrue := hi.bootstraps b (List.mem_of_getElem? hb)
    refine ⟨same _ ⟨hi.db, tasksInv_bootstrap hv _ htrue, selectionInv_bootstrap hi.selection b,
      hi.bootstraps, hi.responses⟩, fun hne => absurd rfl (hne index)⟩
  | taskUpserted index =>
    simp only [sessionNext, Option.map_eq_some_iff] at h
    obtain ⟨t, ht, rfl⟩ := h
    obtain ⟨hti, hnew⟩ := tasksInv_upsertRestTask hi.tasks (hi.responses t (List.mem_of_getElem? ht))
    exact ⟨same _ ⟨hi.db, hti, selectionInv_congr (sameSelection_upsert _ t) hi.selection,
      hi.bootstraps, hi.responses⟩, fun _ => hnew⟩
  | cancelSucceeded index =>
    simp only [sessionNext, Option.map_eq_some_iff] at h
    obtain ⟨t, ht, rfl⟩ := h
    obtain ⟨hti, hnew⟩ := tasksInv_upsertRestTask hi.tasks (hi.responses t (List.mem_of_getElem? ht))
    have hsame := sameSelection_upsert s.client t
    exact ⟨same _ ⟨hi.db, tasksInv_congr hti rfl rfl, selectionInv_congr
      ⟨hsame.selected, hsame.detail, hsame.generation, hsame.loading, hsame.buffer, hsame.applied⟩
      hi.selection, hi.bootstraps, hi.responses⟩, fun _ => hnew⟩
  | eventReceived =>
    simp only [sessionNext] at h
    split at h
    · rename_i page db' hp
      simp only [Option.map_eq_some_iff] at h
      obtain ⟨e, he, rfl⟩ := h
      obtain ⟨hti, hnew, hsel⟩ := reduceEvent_inv hv hi.tasks hi.selection (next_of_page hi.db hp he)
      exact ⟨same _ ⟨hi.db, hti, hsel, hi.bootstraps, hi.responses⟩, fun _ => hnew⟩
    · cases h
  | taskSelected taskId =>
    simp only [sessionNext, Option.some.injEq] at h
    subst h
    exact ⟨same _ ⟨hi.db, tasksInv_congr hi.tasks rfl rfl, selectionInv_select hi.selection taskId,
      hi.bootstraps, hi.responses⟩, fun _ => newer_congr rfl⟩
  | rendered =>
    simp only [sessionNext, Option.some.injEq] at h
    subst h
    have hfix : s.render.client = s.client ∧ s.render.db = s.db ∧
        s.render.bootstraps = s.bootstraps ∧ s.render.responses = s.responses := by
      unfold SessionState.render
      simp only
      split <;> exact ⟨rfl, rfl, rfl, rfl⟩
    obtain ⟨hc, hdb, hb, hr⟩ := hfix
    refine ⟨same _ ⟨by rw [hdb]; exact hi.db, by rw [hc]; exact hi.tasks, render_inv hi.selection,
      by rw [hb]; exact hi.bootstraps, by rw [hr]; exact hi.responses⟩, fun _ => ?_⟩
    exact newer_congr (by rw [hc])
  | detailReceived =>
    simp only [sessionNext] at h
    split at h
    · rename_i taskId generation detail hreq
      simp only [Option.some.injEq] at h
      subst h
      have hsel := hi.selection
      rw [hreq] at hsel
      obtain ⟨hti, hnew, hsel'⟩ := installDetail_inv hv hi.tasks hsel rfl
      exact ⟨same _ ⟨hi.db, hti, hsel', hi.bootstraps, hi.responses⟩, fun _ => hnew⟩
    · cases h
  | detailFailed message =>
    simp only [sessionNext, Option.map_eq_some_iff] at h
    obtain ⟨r, hreq, rfl⟩ := h
    have hsel := hi.selection
    rw [hreq] at hsel
    have htasks : (agentReducer s.client (.detailFailed r.taskId r.generation message)).tasksById =
        s.client.tasksById ∧ (agentReducer s.client
          (.detailFailed r.taskId r.generation message)).appliedEventId =
          s.client.appliedEventId := by
      simp only [agentReducer]
      split <;> exact ⟨rfl, rfl⟩
    exact ⟨same _ ⟨hi.db, tasksInv_congr hi.tasks htasks.1 htasks.2, detailFailed_inv hsel message,
      hi.bootstraps, hi.responses⟩, fun _ => newer_congr htasks.1⟩
  | view action =>
    simp only [sessionNext] at h
    split at h
    · rename_i hview
      simp only [Option.some.injEq] at h
      subst h
      obtain ⟨htasks, hsame⟩ := view_spec hview s.client
      exact ⟨same _ ⟨hi.db, tasksInv_congr hi.tasks htasks hsame.applied,
        selectionInv_congr hsame hi.selection, hi.bootstraps, hi.responses⟩,
        fun _ => newer_congr htasks⟩
    · cases h

theorem sessionInv_inductive (repositories : List RepositoryRow) :
    (session repositories).Inductive fun s => ∃ log, SessionInv s log where
  init := by
    intro s hs
    exact ⟨[], hs ▸ sessionInv_init repositories⟩
  step := by
    intro s l s' ⟨log, hi⟩ h
    obtain ⟨⟨new, hi'⟩, -⟩ := sessionInv_step hi h
    exact ⟨log ++ new, hi'⟩

theorem sessionInv_reachable {repositories : List RepositoryRow} {s : SessionState}
    (h : (session repositories).Reachable s) : ∃ log, SessionInv s log :=
  (sessionInv_inductive repositories).reachable s h

/-- The selected detail belongs to the selected task, is the server's
projection of the task's log cut at its own cursor, and misses no applied
event of the task. -/
def DetailCoherent (s : SessionState) (log : List TaskEvent) : Prop :=
  ∀ d, s.client.selectedDetail = some d →
    s.client.selectedTaskId = some d.task.id ∧
    detailAt log d.task.id d.eventCursor = some d ∧
    ∀ e ∈ log, e.taskId = d.task.id →
      ¬ (d.eventCursor < e.id.get ∧ e.id.get ≤ s.client.appliedEventId)

/-- **Selected detail coherence.** -/
theorem selectedDetail_coherent {repositories : List RepositoryRow} {s : SessionState}
    (h : (session repositories).Reachable s) :
    ∃ log, Reflects s.db log ∧ DetailCoherent s log := by
  obtain ⟨log, hi⟩ := sessionInv_reachable h
  refine ⟨log, hi.db, fun d hd => ?_⟩
  obtain ⟨hs, -, hc⟩ := hi.selection.detail d hd
  refine ⟨hs, hc.proj, fun e he hid hin => ?_⟩
  have := hc.fresh e he hid hin.1
  omega

/-- Every summary is the server's row as of its own version and is not older
than the applied events of its task. -/
def SummariesTrue (s : SessionState) (log : List TaskEvent) : Prop :=
  ∀ id t, s.client.tasksById id = some t → t.id = id ∧
    rowAt log id t.lastEventId.get = some t ∧
    ∀ e ∈ log, e.taskId = id → e.id.get ≤ s.client.appliedEventId →
      e.id.get ≤ t.lastEventId.get

/-- **Task summaries are true**, and only a bootstrap replaces one by an older
one. -/
theorem taskSummaries_true {repositories : List RepositoryRow} {s : SessionState}
    (h : (session repositories).Reachable s) :
    (∃ log, Reflects s.db log ∧ SummariesTrue s log) ∧
      ∀ l s', (session repositories).step s l s' → (∀ index, l ≠ .bootstrapReceived index) →
        Newer s.client s'.client := by
  obtain ⟨log, hi⟩ := sessionInv_reachable h
  refine ⟨⟨log, hi.db, fun id t ht => ?_⟩, fun l s' hstep => (sessionInv_step hi hstep).2⟩
  obtain ⟨hid, hr, hc⟩ := hi.tasks.rows id t ht
  rw [RowTrue, hid] at hr
  exact ⟨hid, hr, fun e he htid => hc e he (htid.trans hid.symm)⟩

/-! ## A concrete session -/

def sampleRepository : RepositoryRow :=
  { id := ⟨3⟩, selectedPath := CanonicalPath.root.toText, displayName := "r",
    gitRoot := CanonicalPath.root.toText, cargoWorkspaceRoot := CanonicalPath.root.toText,
    gitIdentityKey := "/", cargoIdentityKey := "/", createdAt := .epoch, lastOpenedAt := .epoch }

def sampleEnv : Env :=
  { nowUtc := 0, taskId := ⟨1⟩, clientRequestId := ⟨9⟩, rowidGap := fun _ => 0 }

/-- A task is created, selected and started; the start is delivered while the
detail loads. -/
def sampleLabels : List SessionLabel :=
  [.call ⟨sampleEnv, .createTask ⟨⟨2⟩, ⟨3⟩, " p "⟩, false⟩, .bootstrapRead ⟨.ready, 0⟩,
   .bootstrapReceived 0, .taskSelected ⟨1⟩, .rendered, .detailRead,
   .call ⟨sampleEnv, .transitionWithEvent ⟨1⟩ .queued .running, false⟩, .taskRead ⟨1⟩,
   .eventReceived, .detailReceived, .taskUpserted 0]

theorem sampleLabels_detail :
    ((LTS.exec sessionNext (.init [sampleRepository]) sampleLabels).bind fun s =>
      s.client.selectedDetail.map fun d => (d.task.status, d.eventCursor)) =
      some (.running, 2) := by
  decide

theorem sampleLabels_reach : ∃ s, (session [sampleRepository]).Reachable s ∧
    s.client.selectedDetail ≠ none ∧ s.client.tasksById ⟨1⟩ ≠ none := by
  cases h : LTS.exec sessionNext (.init [sampleRepository]) sampleLabels with
  | none =>
    have hd := sampleLabels_detail
    rw [h] at hd; cases hd
  | some s =>
    have hd := sampleLabels_detail
    have ht : ((LTS.exec sessionNext (.init [sampleRepository]) sampleLabels).map fun s =>
        (s.client.tasksById ⟨1⟩).isSome) = some true := by decide
    rw [h] at hd ht
    refine ⟨s, LTS.reachable_of_exec rfl h, fun hn => ?_, fun hn => ?_⟩
    · simp [hn] at hd
    · rw [Option.map_some, hn] at ht
      cases ht

theorem selectedDetail_coherent_sample : ∃ s, (session [sampleRepository]).Reachable s ∧
    s.client.selectedDetail ≠ none ∧ ∃ log, Reflects s.db log ∧ DetailCoherent s log := by
  obtain ⟨s, hr, hd, -⟩ := sampleLabels_reach
  exact ⟨s, hr, hd, selectedDetail_coherent hr⟩

theorem taskSummaries_true_sample : ∃ s, (session [sampleRepository]).Reachable s ∧
    s.client.tasksById ⟨1⟩ ≠ none ∧ ∃ log, Reflects s.db log ∧ SummariesTrue s log := by
  obtain ⟨s, hr, -, ht⟩ := sampleLabels_reach
  exact ⟨s, hr, ht, (taskSummaries_true hr).1⟩

end CodingAgent.L5.Web
