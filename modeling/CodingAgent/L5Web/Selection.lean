import CodingAgent.L5Web.Summaries

/-!
# The selected detail is true of the server's log

`SelectionInv`: the selected detail is the server's projection at its own
cursor and misses no applied event; while a detail loads, the live buffer
holds every event of the task since a cursor that the answer of the pending
request cannot be older than.

* `coherent_event`, `coherent_install`: an event in order, and the install of
  an answer with the buffered events.
* `selectionInv_*`: one lemma for each action that touches the selection.
-/
namespace CodingAgent.L5.Web
open CodingAgent.L1.Domain CodingAgent.L2 CodingAgent.L2.Store CodingAgent.IdLog

/-! ## Projections at a version -/

theorem taskEvents_of_valid {log : List TaskEvent} (h : history.Valid log) (id : TaskId) :
    TaskEvents id (history.streamOf log id) where
  owner _ he := (EventModel.mem_streamOf.1 he).2
  increasing := h.stream_increasing id
  ok e he := valid_eventOk h e (EventModel.mem_streamOf.1 he).1

theorem detailAt_grow {log new : List TaskEvent} (h : history.Valid (log ++ new)) (id : TaskId)
    {v : Nat} (hv : v ≤ latest log) : detailAt (log ++ new) id v = detailAt log id v := by
  rw [detailAt, rowAt_grow h id hv, cut_grow h hv, detailAt]

theorem detailAt_cursor {log : List TaskEvent} {id : TaskId} {v : Nat} {d : TaskDetail}
    (h : detailAt log id v = some d) : d.eventCursor = v := by
  obtain ⟨row, -, rfl⟩ := detailAt_iff.1 h
  simp

theorem detailAt_task {log : List TaskEvent} (hv : history.Valid log) {id : TaskId} {v : Nat}
    {d : TaskDetail} (h : detailAt log id v = some d) :
    d.task.id = id ∧ rowAt log id v = some d.task := by
  obtain ⟨row, hrow, rfl⟩ := detailAt_iff.1 h
  rw [projectTaskDetail_task]
  exact ⟨(rowAt_version hv hrow).id_eq, hrow⟩

/-- The next event of a task applied to its projection. -/
theorem detailAt_next {log : List TaskEvent} (h : history.Valid log) {id : TaskId} {v : Nat}
    {d : TaskDetail} {e : TaskEvent} (hd : detailAt log id v = some d)
    (hn : Next history.key (history.streamOf log id) v e) :
    detailAt log id e.id.get = some (applyEventToDetail d e) := by
  obtain ⟨row, hrow, rfl⟩ := detailAt_iff.1 hd
  have hcut : history.streamOf (history.cut e.id.get log) id =
      history.streamOf (history.cut v log) id ++ [e] := by
    rw [EventModel.streamOf_cut, EventModel.streamOf_cut]
    exact EventModel.cut_next (h.stream_increasing id) hn
  have hev := taskEvents_of_valid (h.cut e.id.get) id
  rw [hcut] at hev
  obtain ⟨row', hrow', happly⟩ := apply_next hev hrow hn.lt
  refine detailAt_iff.2 ⟨row', ?_, ?_⟩
  · rw [rowAt, EventModel.replay, hcut]
    exact hrow'
  · rw [hcut]; exact happly

/-- Events read without gaps applied to a projection. -/
theorem detailAt_contig {log : List TaskEvent} (h : history.Valid log) {id : TaskId}
    {es : List TaskEvent} : ∀ {v : Nat} {d : TaskDetail}, detailAt log id v = some d →
    Contig history.key (history.streamOf log id) v es →
    detailAt log id (endKey history.key v es) = some (es.foldl applyEventToDetail d) := by
  induction es with
  | nil => exact fun hd _ => hd
  | cons e es ih => exact fun hd hc => ih (detailAt_next h hd hc.1) hc.2

/-! ## A coherent detail -/

structure Coherent (log : List TaskEvent) (applied : Nat) (d : TaskDetail) : Prop where
  proj : detailAt log d.task.id d.eventCursor = some d
  fresh : ∀ e ∈ log, e.taskId = d.task.id → d.eventCursor < e.id.get → applied < e.id.get
  bound : d.eventCursor ≤ latest log

theorem coherent_grow {log new : List TaskEvent} (h : history.Valid (log ++ new)) {applied : Nat}
    {d : TaskDetail} (ha : applied ≤ latest log) (hd : Coherent log applied d) :
    Coherent (log ++ new) applied d where
  proj := by rw [detailAt_grow h _ hd.bound]; exact hd.proj
  fresh := by
    intro e he hid hlt
    rcases List.mem_append.1 he with he | he
    · exact hd.fresh e he hid hlt
    · have := latest_lt h e he
      omega
  bound := Nat.le_trans hd.bound (latest_le fun e he => le_latest e (List.mem_append_left new he))

/-- An event in order keeps a detail coherent. -/
theorem coherent_event {log : List TaskEvent} (h : history.Valid log) {applied : Nat}
    {d : TaskDetail} {e : TaskEvent} (hd : Coherent log applied d)
    (hn : NextEvent log applied e) :
    (applyEventToDetail d e).task.id = d.task.id ∧
      Coherent log e.id.get (applyEventToDetail d e) := by
  by_cases hid : e.taskId = d.task.id
  · by_cases hle : e.id.get ≤ d.eventCursor
    · rw [apply_old hle]
      refine ⟨rfl, hd.proj, fun x hx hxid hlt => ?_, hd.bound⟩
      omega
    · have hnext : Next history.key (history.streamOf log d.task.id) d.eventCursor e := by
        refine ⟨EventModel.mem_streamOf.2 ⟨hn.mem, hid⟩, by show d.eventCursor < e.id.get; omega, ?_⟩
        intro x hx hlt
        obtain ⟨hx, hxid⟩ := EventModel.mem_streamOf.1 hx
        exact hn.least x hx (hd.fresh x hx hxid hlt)
      have hproj := detailAt_next h hd.proj hnext
      have htask := (detailAt_task h hproj).1
      have hcur := detailAt_cursor hproj
      refine ⟨htask, ?_, ?_, ?_⟩
      · rw [htask, hcur]; exact hproj
      · intro x _ _ hlt
        rwa [hcur] at hlt
      · rw [hcur]; exact le_latest e hn.mem
  · rw [apply_other hid]
    refine ⟨rfl, hd.proj, fun x hx hxid hlt => ?_, hd.bound⟩
    have hlt := hd.fresh x hx hxid hlt
    have hle : e.id.get ≤ x.id.get := hn.least x hx hlt
    rcases Nat.lt_or_eq_of_le hle with hlt' | heq
    · exact hlt'
    · rw [h.increasing.inj hn.mem hx heq] at hid
      exact absurd hxid hid

/-- The events of a task in the interval from `since` to `upto`. -/
def buffered (log : List TaskEvent) (id : TaskId) (since upto : Nat) : List TaskEvent :=
  (history.cut upto (history.streamOf log id)).filter fun e => since < e.id.get

theorem mem_buffered {log : List TaskEvent} {id : TaskId} {since upto : Nat} {e : TaskEvent} :
    e ∈ buffered log id since upto ↔
      e ∈ log ∧ e.taskId = id ∧ e.id.get ≤ upto ∧ since < e.id.get := by
  simp only [buffered, List.mem_filter, EventModel.mem_cut, EventModel.mem_streamOf,
    decide_eq_true_eq, and_assoc]
  rfl

theorem buffered_empty (log : List TaskEvent) (id : TaskId) (v : Nat) : buffered log id v v = [] := by
  refine List.eq_nil_iff_forall_not_mem.2 fun e he => ?_
  obtain ⟨-, -, hle, hlt⟩ := mem_buffered.1 he
  omega

theorem buffered_grow {log new : List TaskEvent} (h : history.Valid (log ++ new)) (id : TaskId)
    (since : Nat) {upto : Nat} (hu : upto ≤ latest log) :
    buffered (log ++ new) id since upto = buffered log id since upto := by
  rw [buffered, ← EventModel.streamOf_cut, cut_grow h hu, EventModel.streamOf_cut, buffered]

/-- The next event joins the buffer of its task and no other. -/
theorem buffered_next {log : List TaskEvent} (h : history.Valid log) {applied : Nat}
    {e : TaskEvent} (hn : NextEvent log applied e) (id : TaskId) {since : Nat}
    (hs : since ≤ applied) :
    buffered log id since e.id.get =
      if e.taskId = id then buffered log id since applied ++ [e]
      else buffered log id since applied := by
  split
  · rename_i hid
    have hnext : Next history.key (history.streamOf log id) applied e :=
      ⟨EventModel.mem_streamOf.2 ⟨hn.mem, hid⟩, hn.lt,
        fun x hx hlt => hn.least x (EventModel.mem_streamOf.1 hx).1 hlt⟩
    have hcut := EventModel.cut_next (h.stream_increasing id) hnext
    have hlt : since < e.id.get := Nat.lt_of_le_of_lt hs hn.lt
    rw [buffered, show e.id.get = history.key e from rfl, hcut, List.filter_append, buffered]
    simp [hlt]
  · rename_i hid
    rw [buffered, buffered]
    congr 1
    refine EventModel.cut_congr fun x hx => ?_
    obtain ⟨hx, hxid⟩ := EventModel.mem_streamOf.1 hx
    have hlt : applied < e.id.get := hn.lt
    refine ⟨fun hle => ?_, fun hle => Nat.le_trans hle (Nat.le_of_lt hlt)⟩
    rcases applied_le_of_next h hn hx hle with rfl | hle
    · exact absurd hxid hid
    · exact hle

/-- Reading on from a cursor inside the buffer skips nothing. -/
theorem contig_buffered {log : List TaskEvent} (h : history.Valid log) (id : TaskId)
    (since upto : Nat) :
    Contig history.key (history.streamOf log id) since (buffered log id since upto) := by
  obtain ⟨post, hpost, hlt⟩ := EventModel.cut_prefix (h.stream_increasing id) upto
  have hinc : Increasing history.key (history.cut upto (history.streamOf log id)) :=
    List.Pairwise.filter _ (h.stream_increasing id)
  have hc := contig_filter hinc since
  rw [hpost]
  refine contig_grow ?_ hc
  intro x hx y hy
  exact Nat.lt_of_le_of_lt (EventModel.mem_cut.1 hx).2 (hlt y hy)

/-- The buffer is sorted already. -/
theorem insertionSort_buffered {log : List TaskEvent} (h : history.Valid log) (id : TaskId)
    (since upto : Nat) :
    (buffered log id since upto).insertionSort (fun a b => a.id.get ≤ b.id.get) =
      buffered log id since upto :=
  List.Pairwise.insertionSort_eq
    ((contig_pairwise (contig_buffered h id since upto)).imp fun hlt => Nat.le_of_lt hlt)

/-- Of a buffer, what lies beyond a later cursor. -/
theorem filter_buffered (log : List TaskEvent) (id : TaskId) {since cursor : Nat} (upto : Nat)
    (hle : since ≤ cursor) :
    (buffered log id since upto).filter (fun e => cursor < e.id.get) =
      buffered log id cursor upto := by
  rw [buffered, List.filter_filter, buffered]
  refine List.filter_congr fun e _ => ?_
  by_cases hc : cursor < e.id.get
  · have : since < e.id.get := by omega
    simp [hc, this]
  · simp [hc]

/-- An answer with the buffered events applied is coherent. -/
theorem coherent_install {log : List TaskEvent} (h : history.Valid log) {id : TaskId}
    {applied cursor : Nat} {d : TaskDetail} (hd : detailAt log id cursor = some d)
    (hb : cursor ≤ latest log) :
    ((buffered log id cursor applied).foldl applyEventToDetail d).task.id = id ∧
      Coherent log applied ((buffered log id cursor applied).foldl applyEventToDetail d) := by
  have hc := contig_buffered h id cursor applied
  have hproj := detailAt_contig h hd hc
  have htask := (detailAt_task h hproj).1
  have hcur := detailAt_cursor hproj
  refine ⟨htask, ?_, ?_, ?_⟩
  · rw [htask, hcur]; exact hproj
  · intro e he hid hlt
    rw [htask] at hid
    rw [hcur] at hlt
    refine Nat.lt_of_not_le fun hle => ?_
    have hce : cursor < e.id.get := Nat.lt_of_le_of_lt (contig_le_endKey hc) hlt
    have hend : e.id.get ≤ endKey history.key cursor (buffered log id cursor applied) :=
      contig_key_le_endKey hc e (mem_buffered.2 ⟨he, hid, hle, hce⟩)
    omega
  · rw [hcur]
    rcases endKey_cases cursor (buffered log id cursor applied) with heq | ⟨e, he, heq⟩
    · rw [heq]; exact hb
    · rw [heq]
      exact le_latest e (mem_buffered.1 he).1

/-- The task of a coherent detail is true and covers the applied events. -/
theorem coherent_task {log : List TaskEvent} (h : history.Valid log) {applied : Nat}
    {d : TaskDetail} (hd : Coherent log applied d) :
    RowTrue log d.task ∧ Covers log applied d.task := by
  have hrow := (detailAt_task h hd.proj).2
  refine ⟨rowTrue_of_rowAt h hrow, fun e he hid hle => ?_⟩
  refine (rowAt_version h hrow).last e he hid (Nat.le_of_not_lt fun hlt => ?_)
  have := hd.fresh e he hid hlt
  omega

/-! ## The selection -/

/-- The detail request the hook has not disposed: what it was issued for, and
the server's answer once there is one (`none` inside for a missing task).
mirrors web/src/state/useAgentState.ts:296-333 -/
structure DetailRequest where
  taskId : TaskId
  generation : Nat
  response : Option (Option TaskDetail)
  deriving DecidableEq, Repr

/-- A pending selection of `id`, with the buffer complete since `since`. -/
structure Loading (log : List TaskEvent) (c : AgentState) (request : Option DetailRequest)
    (id : TaskId) (since : Nat) : Prop where
  selected : c.selectedTaskId = some id
  since_le : since ≤ c.appliedEventId
  buffer : c.liveBufferByTaskId id = some (buffered log id since c.appliedEventId)
  answer : ∀ r d, request = some r → r.generation = c.selectionGeneration →
    r.taskId = id → r.response = some (some d) →
    since ≤ d.eventCursor ∧ detailAt log id d.eventCursor = some d ∧ d.eventCursor ≤ latest log

structure SelectionInv (log : List TaskEvent) (c : AgentState) (request : Option DetailRequest) :
    Prop where
  detail : ∀ d, c.selectedDetail = some d →
    c.selectedTaskId = some d.task.id ∧ c.detailLoading = false ∧
      Coherent log c.appliedEventId d
  loading : c.detailLoading = true → ∃ id since, Loading log c request id since
  idle : c.detailLoading = false → ∀ r, request = some r →
    r.generation = c.selectionGeneration → c.selectedTaskId ≠ some r.taskId
  generation : ∀ r, request = some r → r.generation ≤ c.selectionGeneration

theorem SelectionInv.no_detail {log : List TaskEvent} {c : AgentState}
    {request : Option DetailRequest} (hi : SelectionInv log c request)
    (hl : c.detailLoading = true) : c.selectedDetail = none := by
  cases hd : c.selectedDetail with
  | none => rfl
  | some d =>
    obtain ⟨-, hf, -⟩ := hi.detail d hd
    rw [hl] at hf; cases hf

theorem SelectionInv.ofNone {log : List TaskEvent} {c : AgentState}
    (detail : ∀ d, c.selectedDetail = some d → c.selectedTaskId = some d.task.id ∧
      c.detailLoading = false ∧ Coherent log c.appliedEventId d)
    (loading : c.detailLoading = true → ∃ id since, Loading log c none id since) :
    SelectionInv log c none where
  detail := detail
  loading := loading
  idle := by intro _ r hr; cases hr
  generation := by intro r hr; cases hr

/-- A request may be disposed of. -/
theorem SelectionInv.drop {log : List TaskEvent} {c : AgentState} {request : Option DetailRequest}
    (hi : SelectionInv log c request) : SelectionInv log c none := by
  refine .ofNone hi.detail fun hl => ?_
  obtain ⟨id, since, hload⟩ := hi.loading hl
  refine ⟨id, since, hload.selected, hload.since_le, hload.buffer, ?_⟩
  intro r d hr; cases hr

theorem selectionInv_grow {log new : List TaskEvent} {c : AgentState}
    {request : Option DetailRequest} (h : history.Valid (log ++ new))
    (ha : c.appliedEventId ≤ latest log) (hi : SelectionInv log c request) :
    SelectionInv (log ++ new) c request where
  detail := by
    intro d hd
    obtain ⟨hs, hl, hc⟩ := hi.detail d hd
    exact ⟨hs, hl, coherent_grow h ha hc⟩
  loading := by
    intro hl
    obtain ⟨id, since, hload⟩ := hi.loading hl
    refine ⟨id, since, hload.selected, hload.since_le, ?_, ?_⟩
    · rw [buffered_grow h id since ha]; exact hload.buffer
    · intro r d hr hg hid hresp
      obtain ⟨hs, hp, hb⟩ := hload.answer r d hr hg hid hresp
      refine ⟨hs, by rw [detailAt_grow h id hb]; exact hp, Nat.le_trans hb ?_⟩
      exact latest_le fun e he => le_latest e (List.mem_append_left new he)
  idle := hi.idle
  generation := hi.generation

/-- The fields the selection depends on are the same. -/
structure SameSelection (c c' : AgentState) : Prop where
  selected : c'.selectedTaskId = c.selectedTaskId
  detail : c'.selectedDetail = c.selectedDetail
  generation : c'.selectionGeneration = c.selectionGeneration
  loading : c'.detailLoading = c.detailLoading
  buffer : c'.liveBufferByTaskId = c.liveBufferByTaskId
  applied : c'.appliedEventId = c.appliedEventId

theorem selectionInv_congr {log : List TaskEvent} {c c' : AgentState}
    {request : Option DetailRequest} (hs : SameSelection c c') (hi : SelectionInv log c request) :
    SelectionInv log c' request where
  detail := by rw [hs.detail, hs.selected, hs.loading, hs.applied]; exact hi.detail
  loading := by
    rw [hs.loading]
    intro hl
    obtain ⟨id, since, hload⟩ := hi.loading hl
    exact ⟨id, since, by rw [hs.selected]; exact hload.selected,
      by rw [hs.applied]; exact hload.since_le, by rw [hs.buffer, hs.applied]; exact hload.buffer,
      by rw [hs.generation]; exact hload.answer⟩
  idle := by rw [hs.loading, hs.generation, hs.selected]; exact hi.idle
  generation := by rw [hs.generation]; exact hi.generation

/-- A fresh generation: nothing is answered for it yet and its buffer starts
empty. -/
theorem selectionInv_fresh {log : List TaskEvent} {c : AgentState}
    {request : Option DetailRequest} {id : TaskId} (hsel : c.selectedTaskId = some id)
    (hdet : c.selectedDetail = none) (hload : c.detailLoading = true)
    (hbuf : c.liveBufferByTaskId id = some [])
    (hgen : ∀ r, request = some r → r.generation < c.selectionGeneration) :
    SelectionInv log c request where
  detail := by intro d hd; rw [hdet] at hd; cases hd
  loading := by
    intro _
    refine ⟨id, c.appliedEventId, hsel, Nat.le_refl _, by rw [hbuf, buffered_empty], ?_⟩
    intro r d hr hg
    have := hgen r hr
    omega
  idle := by intro hl; rw [hload] at hl; cases hl
  generation := fun r hr => Nat.le_of_lt (hgen r hr)

theorem selectionInv_select {log : List TaskEvent} {c : AgentState}
    {request : Option DetailRequest} (hi : SelectionInv log c request) (id : TaskId) :
    SelectionInv log (selectTask c id) request :=
  selectionInv_fresh rfl rfl rfl (by simp [selectTask])
    fun r hr => Nat.lt_succ_of_le (hi.generation r hr)

theorem selectionInv_bootstrap {log : List TaskEvent} {c : AgentState}
    {request : Option DetailRequest} (hi : SelectionInv log c request)
    (b : BootstrapResponse) : SelectionInv log (installBootstrap c b) request := by
  cases hsel : (installBootstrap c b).selectedTaskId with
  | none =>
    have hload : (installBootstrap c b).detailLoading = false := by
      show ((installBootstrap c b).selectedTaskId).isSome = false
      rw [hsel]; rfl
    have hgen : (installBootstrap c b).selectionGeneration = c.selectionGeneration := by
      show (if (installBootstrap c b).selectedTaskId = none then _ else _) = _
      rw [if_pos hsel]
    refine ⟨?_, ?_, ?_, ?_⟩
    · intro d hd; cases hd
    · intro hl; rw [hload] at hl; cases hl
    · intro _ r _ _
      rw [hsel]; simp
    · rw [hgen]; exact hi.generation
  | some id =>
    have hload : (installBootstrap c b).detailLoading = true := by
      show ((installBootstrap c b).selectedTaskId).isSome = true
      rw [hsel]; rfl
    have hgen : (installBootstrap c b).selectionGeneration = c.selectionGeneration + 1 := by
      show (if (installBootstrap c b).selectedTaskId = none then _ else _) = _
      rw [if_neg (by rw [hsel]; simp)]
    have hbuf : (installBootstrap c b).liveBufferByTaskId id = some [] := by
      simp only [installBootstrap] at hsel ⊢
      rw [hsel]
      exact Rec.put_self ..
    refine selectionInv_fresh hsel rfl hload hbuf fun r hr => ?_
    rw [hgen]
    exact Nat.lt_succ_of_le (hi.generation r hr)

/-- An event in order. -/
theorem selectionInv_event {log : List TaskEvent} {c c' : AgentState}
    {request : Option DetailRequest} {e : TaskEvent} (h : history.Valid log)
    (hi : SelectionInv log c request) (hn : NextEvent log c.appliedEventId e)
    (hdet : c'.selectedDetail = (updateSelection c e).1)
    (hbuf : c'.liveBufferByTaskId = (updateSelection c e).2)
    (hsel : c'.selectedTaskId = c.selectedTaskId)
    (hgen : c'.selectionGeneration = c.selectionGeneration)
    (hload : c'.detailLoading = c.detailLoading) (happ : c'.appliedEventId = e.id.get) :
    SelectionInv log c' request where
  detail := by
    intro d hd
    rw [hsel, hload, happ]
    rw [hdet, updateSelection] at hd
    by_cases hmine : c.selectedTaskId = some e.taskId
    · rw [if_pos hmine] at hd
      cases hold : c.selectedDetail with
      | none => rw [hold] at hd; cases hd
      | some old =>
        obtain ⟨hs, hl, hc⟩ := hi.detail old hold
        have hid : old.task.id = e.taskId := by
          rw [hs] at hmine; exact Option.some.inj hmine
        simp only [hold, if_pos hid, Option.some.injEq] at hd
        obtain ⟨htask, hcoh⟩ := coherent_event h hc hn
        rw [← hd]
        exact ⟨by rw [htask]; exact hs, hl, hcoh⟩
    · rw [if_neg hmine] at hd
      obtain ⟨hs, hl, hc⟩ := hi.detail d hd
      have hid : e.taskId ≠ d.task.id := fun heq => hmine (by rw [hs, heq])
      have hcoh := (coherent_event h hc hn).2
      rw [apply_other hid] at hcoh
      exact ⟨hs, hl, hcoh⟩
  loading := by
    intro hl
    rw [hload] at hl
    obtain ⟨id, since, hload⟩ := hi.loading hl
    have hlt : c.appliedEventId < e.id.get := hn.lt
    refine ⟨id, since, by rw [hsel]; exact hload.selected, ?_, ?_, by rw [hgen]; exact hload.answer⟩
    · rw [happ]
      exact Nat.le_trans hload.since_le (Nat.le_of_lt hlt)
    · rw [happ, hbuf, updateSelection, hload.selected, hi.no_detail hl,
        buffered_next h hn id hload.since_le]
      by_cases hid : id = e.taskId
      · subst hid
        have hnew : ((buffered log e.taskId since c.appliedEventId).any
            fun item => decide (item.id = e.id)) = false := by
          refine List.any_eq_false.2 fun x hx => ?_
          obtain ⟨-, -, hle, -⟩ := mem_buffered.1 hx
          intro heq
          have heq : x.id = e.id := by simpa using heq
          rw [heq] at hle
          omega
        simp [hload.buffer, hnew]
      · have hne : ¬ e.taskId = id := fun heq => hid heq.symm
        simp [hid, hne, hload.buffer]
  idle := by rw [hload, hgen, hsel]; exact hi.idle
  generation := by rw [hgen]; exact hi.generation

/-- What an accepted answer installs. -/
theorem install_spec {log : List TaskEvent} {c : AgentState} {r : DetailRequest} {d : TaskDetail}
    (h : history.Valid log) (hi : SelectionInv log c (some r)) (hr : r.response = some (some d))
    (hsel : c.selectedTaskId = some r.taskId) (hgen : r.generation = c.selectionGeneration) :
    ∃ installed, ((((c.liveBufferByTaskId r.taskId).getD []).filter
        fun event => d.eventCursor < event.id.get).insertionSort
          fun a b => a.id.get ≤ b.id.get).foldl applyEventToDetail d = installed ∧
      installed.task.id = r.taskId ∧ Coherent log c.appliedEventId installed := by
  have hl : c.detailLoading = true := by
    cases hl : c.detailLoading with
    | true => rfl
    | false => exact absurd hsel (hi.idle hl r rfl hgen)
  obtain ⟨id, since, hload⟩ := hi.loading hl
  have hid : r.taskId = id := Option.some.inj (hsel.symm.trans hload.selected)
  obtain ⟨hs, hp, hb⟩ := hload.answer r d rfl hgen hid hr
  refine ⟨_, rfl, ?_⟩
  rw [hid, hload.buffer, Option.getD_some, filter_buffered log id c.appliedEventId hs,
    insertionSort_buffered h]
  exact coherent_install h hp hb

end CodingAgent.L5.Web
