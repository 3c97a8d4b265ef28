import CodingAgent.L5Web.Reducer

/-!
# Task summaries are true of the server's log

`TasksInv`: every task summary is the server's row as of its own
`last_event_id`, and not older than the events applied so far. One lemma for
each way the reducer writes a summary.

* `tasksInv_upsertRestTask`: a REST response, however late.
* `tasksInv_event`: the next event of the stream.
* `tasksInv_withTask`: any true row that covers the applied events.
* `Newer`: none of these makes a summary older.
-/
namespace CodingAgent.L5.Web
open CodingAgent.L1.Domain CodingAgent.L2 CodingAgent.L2.Store CodingAgent.IdLog

/-! ## Task summaries -/

/-- The server's row as of its own version. -/
def RowTrue (log : List TaskEvent) (t : Task) : Prop := rowAt log t.id t.lastEventId.get = some t

/-- `t` is not older than what was applied. -/
def Covers (log : List TaskEvent) (applied : Nat) (t : Task) : Prop :=
  ∀ e ∈ log, e.taskId = t.id → e.id.get ≤ applied → e.id.get ≤ t.lastEventId.get

structure TasksInv (log : List TaskEvent) (c : AgentState) : Prop where
  applied : c.appliedEventId ≤ latest log
  known : ∀ e ∈ log, e.id.get ≤ c.appliedEventId → c.tasksById e.taskId ≠ none
  rows : ∀ id t, c.tasksById id = some t → t.id = id ∧ RowTrue log t ∧
    Covers log c.appliedEventId t

theorem rowTrue_of_rowAt {log : List TaskEvent} (h : history.Valid log) {id : TaskId} {v : Nat}
    {t : Task} (ht : rowAt log id v = some t) : RowTrue log t := by
  have hr := rowAt_version h ht
  rw [RowTrue, hr.id_eq]; exact hr.row

theorem rowTrue_le {log : List TaskEvent} (h : history.Valid log) {t : Task}
    (ht : RowTrue log t) : t.lastEventId.get ≤ latest log := by
  obtain ⟨e, he, -, heq⟩ := (rowAt_version h ht).mem
  rw [← heq]
  exact le_latest e he

theorem rowTrue_grow {log new : List TaskEvent} (h : history.Valid (log ++ new)) {t : Task}
    (ht : RowTrue log t) : RowTrue (log ++ new) t := by
  rw [RowTrue, rowAt_grow h t.id (rowTrue_le h.left ht)]
  exact ht

theorem covers_grow {log new : List TaskEvent} (h : history.Valid (log ++ new)) {applied : Nat}
    (ha : applied ≤ latest log) {t : Task} (ht : Covers log applied t) :
    Covers (log ++ new) applied t := by
  intro e he hid hle
  rcases List.mem_append.1 he with he | he
  · exact ht e he hid hle
  · have := latest_lt h e he
    omega

theorem tasksInv_grow {log new : List TaskEvent} {c : AgentState}
    (h : history.Valid (log ++ new)) (hi : TasksInv log c) : TasksInv (log ++ new) c where
  applied := Nat.le_trans hi.applied (latest_le fun e he => le_latest e (List.mem_append_left new he))
  known := by
    intro e he hle
    rcases List.mem_append.1 he with he | he
    · exact hi.known e he hle
    · have := latest_lt h e he
      have := hi.applied
      omega
  rows := by
    intro id t ht
    obtain ⟨hid, hr, hc⟩ := hi.rows id t ht
    exact ⟨hid, rowTrue_grow h hr, covers_grow h hi.applied hc⟩

theorem tasksInv_congr {log : List TaskEvent} {c c' : AgentState} (hi : TasksInv log c)
    (ht : c'.tasksById = c.tasksById) (ha : c'.appliedEventId = c.appliedEventId) :
    TasksInv log c' := by
  refine ⟨?_, ?_, ?_⟩
  · rw [ha]; exact hi.applied
  · rw [ha, ht]; exact hi.known
  · rw [ha, ht]; exact hi.rows

/-- A summary may be replaced by any true row that is not older than what was
applied. -/
theorem tasksInv_withTask {log : List TaskEvent} {c : AgentState} {t : Task}
    (hi : TasksInv log c) (hr : RowTrue log t) (hc : Covers log c.appliedEventId t) :
    TasksInv log (withTask c t) where
  applied := hi.applied
  known := by
    intro e he hle
    by_cases hid : e.taskId = t.id
    · simp [withTask, hid]
    · simp only [withTask, Rec.put_other c.tasksById t hid]
      exact hi.known e he hle
  rows := by
    intro id u hu
    by_cases hid : id = t.id
    · subst hid
      simp only [withTask, Rec.put_self, Option.some.injEq] at hu
      subst hu
      exact ⟨rfl, hr, hc⟩
    · simp only [withTask, Rec.put_other c.tasksById t hid] at hu
      exact hi.rows id u hu

/-- Rows never get older. -/
def Newer (c c' : AgentState) : Prop :=
  ∀ id t, c.tasksById id = some t →
    ∃ t', c'.tasksById id = some t' ∧ t.lastEventId.get ≤ t'.lastEventId.get

theorem newer_congr {c c' : AgentState} (h : c'.tasksById = c.tasksById) : Newer c c' :=
  fun id t ht => ⟨t, by rw [h]; exact ht, Nat.le_refl _⟩

theorem newer_withTask {c : AgentState} {t : Task}
    (h : ∀ current, c.tasksById t.id = some current →
      current.lastEventId.get ≤ t.lastEventId.get) : Newer c (withTask c t) := by
  intro id u hu
  by_cases hid : id = t.id
  · subst hid
    exact ⟨t, by simp [withTask], h u hu⟩
  · exact ⟨u, by simpa [withTask, Rec.put_other c.tasksById t hid] using hu, Nat.le_refl _⟩

/-- `upsertRestTask` keeps the state or installs a task that is not older. -/
theorem upsertRestTask_cases (c : AgentState) (t : Task) :
    upsertRestTask c t = c ∨ (upsertRestTask c t = withTask c t ∧
      ∀ current, c.tasksById t.id = some current →
        current.lastEventId.get ≤ t.lastEventId.get) := by
  unfold upsertRestTask
  cases h : c.tasksById t.id with
  | none => exact .inr ⟨rfl, by simp⟩
  | some current =>
    simp only
    split
    · exact .inl rfl
    · rename_i hg
      refine .inr ⟨rfl, fun x hx => ?_⟩
      cases hx
      simp only [not_or] at hg
      omega

theorem tasksInv_upsertRestTask {log : List TaskEvent} {c : AgentState} {t : Task}
    (hi : TasksInv log c) (hr : RowTrue log t) :
    TasksInv log (upsertRestTask c t) ∧ Newer c (upsertRestTask c t) := by
  rcases upsertRestTask_cases c t with h | ⟨h, hnew⟩
  · rw [h]; exact ⟨hi, newer_congr rfl⟩
  · rw [h]
    refine ⟨tasksInv_withTask hi hr ?_, newer_withTask hnew⟩
    -- an applied event of the task means that a summary is there already
    intro e he hid hle
    obtain ⟨current, hcur⟩ := Option.ne_none_iff_exists'.1 (hi.known e he hle)
    rw [hid] at hcur
    obtain ⟨hcid, -, hcov⟩ := hi.rows t.id current hcur
    exact Nat.le_trans (hcov e he (hid.trans hcid.symm) hle) (hnew current hcur)

/-! ## An event in order -/

/-- The event the stream delivers: the first one beyond the applied cursor. -/
abbrev NextEvent (log : List TaskEvent) (applied : Nat) (e : TaskEvent) : Prop :=
  Next history.key log applied e

theorem applied_le_of_next {log : List TaskEvent} (h : history.Valid log) {applied : Nat}
    {e x : TaskEvent} (hn : NextEvent log applied e) (hx : x ∈ log) (hle : x.id.get ≤ e.id.get) :
    x = e ∨ x.id.get ≤ applied := by
  by_cases hlt : applied < x.id.get
  · have : e.id.get ≤ x.id.get := hn.least x hx hlt
    exact .inl (h.increasing.inj hx hn.mem (Nat.le_antisymm hle this))
  · exact .inr (by omega)

/-- A row that covers the old cursor and reaches the event, if it is its
task's, covers the event. -/
theorem covers_next {log : List TaskEvent} (h : history.Valid log) {applied : Nat} {e : TaskEvent}
    (hn : NextEvent log applied e) {t : Task} (hc : Covers log applied t)
    (hself : t.id = e.taskId → e.id.get ≤ t.lastEventId.get) : Covers log e.id.get t := by
  intro x hx hid hle
  rcases applied_le_of_next h hn hx hle with rfl | hx'
  · exact hself hid.symm
  · exact hc x hx hid hx'

/-- The row after the event, from any version that covers the cursor. -/
theorem rowAt_of_next {log : List TaskEvent} (h : history.Valid log) {applied : Nat}
    {e : TaskEvent} (hn : NextEvent log applied e) {v : Nat} (hv : v < e.id.get)
    (hc : ∀ x ∈ log, x.taskId = e.taskId → x.id.get ≤ applied → x.id.get ≤ v) :
    rowAt log e.taskId e.id.get = applyEvent (rowAt log e.taskId v) e := by
  refine rowAt_next h hn.mem hv fun x hx hid hlt => ?_
  rcases Nat.lt_or_ge applied x.id.get with hxa | hxa
  · exact hn.least x hx hxa
  · have := hc x hx hid hxa
    omega

/-- A summary that is terminal has no event of its task beyond it. -/
theorem le_of_terminal {log : List TaskEvent} (h : history.Valid log) {e : TaskEvent}
    (he : e ∈ log) {t : Task} (hid : t.id = e.taskId) (hr : RowTrue log t)
    (hterm : t.status.isRetryable = true) : e.id.get ≤ t.lastEventId.get := by
  refine Nat.le_of_not_lt fun hlt => ?_
  rw [RowTrue, hid] at hr
  obtain ⟨post, hpost, -⟩ := EventModel.cut_prefix h.increasing t.lastEventId.get
  have hnone := (valid_terminal_stable (hpost ▸ h) hr hterm).1
  have hmem : e ∈ history.streamOf post e.taskId := by
    refine EventModel.mem_streamOf.2 ⟨?_, rfl⟩
    rw [hpost] at he
    rcases List.mem_append.1 he with hin | hin
    · have : e.id.get ≤ t.lastEventId.get := (EventModel.mem_cut.1 hin).2
      omega
    · exact hin
  rw [hnone] at hmem
  cases hmem

/-- A panel event's task was queued before, so its summary is there. -/
theorem known_of_panel {log : List TaskEvent} {c : AgentState} {e : TaskEvent}
    (h : history.Valid log) (hi : TasksInv log c) (hn : NextEvent log c.appliedEventId e)
    (hp : e.payload.task? = none) : c.tasksById e.taskId ≠ none := by
  obtain ⟨pre, post, hlog⟩ := List.append_of_mem hn.mem
  have hvalid : history.Valid (pre ++ e :: post) := hlog ▸ h
  have hf := hvalid.adm_at.follows
  cases hq : history.replay pre e.taskId with
  | none =>
    rw [show history.replay pre (history.stream e) = none from hq] at hf
    cases hf with
    | queued hpay => rw [hpay] at hp; cases hp
  | some t =>
    obtain ⟨x, hx, -⟩ := (valid_rowOf_some hvalid.left hq).last
    obtain ⟨hxpre, hxid⟩ := EventModel.mem_streamOf.1 (List.mem_of_getLast? hx)
    have hxlog : x ∈ log := by rw [hlog]; exact List.mem_append_left _ hxpre
    have hxlt : x.id.get < e.id.get := hvalid.beyond x hxpre e List.mem_cons_self
    rcases applied_le_of_next h hn hxlog (Nat.le_of_lt hxlt) with rfl | hle
    · omega
    · have hknown := hi.known x hxlog hle
      rwa [show x.taskId = e.taskId from hxid] at hknown

/-- What `updateSummaryForEvent` does: it keeps the summaries, where that of
the event's task reaches the event, or it puts the row after the event. -/
theorem updateSummary_cases {log : List TaskEvent} {c : AgentState} {e : TaskEvent}
    (h : history.Valid log) (hi : TasksInv log c) (hn : NextEvent log c.appliedEventId e) :
    (∃ current, c.tasksById e.taskId = some current ∧ e.id.get ≤ current.lastEventId.get ∧
      (updateSummaryForEvent c e).tasksById = c.tasksById) ∨
    (∃ task, task.id = e.taskId ∧ task.lastEventId = e.id ∧ RowTrue log task ∧
      (∀ current, c.tasksById e.taskId = some current →
        current.lastEventId.get ≤ e.id.get) ∧
      (updateSummaryForEvent c e).tasksById = c.tasksById.put e.taskId task) := by
  have hok := valid_eventOk h e hn.mem
  unfold updateSummaryForEvent
  cases hp : e.payload.task? with
  | some task =>
    obtain ⟨-, htid, htl, -⟩ := hok.task task hp
    have htrue : RowTrue log task := by
      rw [RowTrue, htid, htl, rowAt_of_next h hn hn.lt fun _ _ _ hx => hx, applyEvent_task hp]
    have hwith : (withTask c task).tasksById = c.tasksById.put e.taskId task := by
      rw [withTask, htid]
    cases hcur : c.tasksById e.taskId with
    | none => exact .inr ⟨task, htid, htl, htrue, by simp, hwith⟩
    | some current =>
      obtain ⟨hcid, hr, -⟩ := hi.rows _ _ hcur
      simp only
      split
      · rename_i hg
        refine .inl ⟨current, rfl, ?_, rfl⟩
        rcases hg with hg | ⟨hterm, -⟩
        · rwa [htl] at hg
        · exact le_of_terminal h hn.mem hcid hr (isTerminalTask_eq current ▸ hterm)
      · rename_i hg
        refine .inr ⟨task, htid, htl, htrue, fun x hx => ?_, hwith⟩
        cases hx
        rw [not_or, htl] at hg
        omega
  | none =>
    cases hcur : c.tasksById e.taskId with
    | none => exact absurd hcur (known_of_panel h hi hn hp)
    | some current =>
      obtain ⟨hcid, hr, hc⟩ := hi.rows _ _ hcur
      simp only
      split
      · rename_i hle
        exact .inl ⟨current, rfl, hle, rfl⟩
      · rename_i hlt
        refine .inr ⟨{ current with lastEventId := e.id }, hcid, rfl, ?_, fun x hx => ?_, rfl⟩
        · have hrow := rowAt_of_next h hn (v := current.lastEventId.get) (by omega)
            fun x hx hid hle => hc x hx (hid.trans hcid.symm) hle
          rw [← hcid, show rowAt log current.id current.lastEventId.get = some current from hr,
            applyEvent, hp] at hrow
          exact hrow
        · cases hx; omega

/-- The summaries after an event in order. -/
theorem tasksInv_event {log : List TaskEvent} {c c' : AgentState} {e : TaskEvent}
    (h : history.Valid log) (hi : TasksInv log c) (hn : NextEvent log c.appliedEventId e)
    (ht : c'.tasksById = (updateSummaryForEvent c e).tasksById)
    (ha : c'.appliedEventId = e.id.get) : TasksInv log c' ∧ Newer c c' := by
  have hother : ∀ id t, id ≠ e.taskId → c.tasksById id = some t →
      t.id = id ∧ RowTrue log t ∧ Covers log e.id.get t := by
    intro id t hne hid
    obtain ⟨htid, hr, hc⟩ := hi.rows id t hid
    exact ⟨htid, hr, covers_next h hn hc fun heq => absurd (htid.symm.trans heq) hne⟩
  have hle := le_latest e hn.mem
  rcases updateSummary_cases h hi hn with ⟨current, hcur, hreach, htasks⟩ |
    ⟨task, htid, htl, hr, hold, htasks⟩
  · rw [htasks] at ht
    refine ⟨⟨by rw [ha]; exact hle, ?_, ?_⟩, newer_congr ht⟩
    · intro x hx hxle
      rw [ht]
      rw [ha] at hxle
      rcases applied_le_of_next h hn hx hxle with rfl | hxle
      · rw [hcur]; simp
      · exact hi.known x hx hxle
    · intro id t hid
      rw [ht] at hid
      rw [ha]
      by_cases hne : id = e.taskId
      · subst hne
        rw [hcur] at hid; cases hid
        obtain ⟨hcid, hrt, hc⟩ := hi.rows _ _ hcur
        exact ⟨hcid, hrt, covers_next h hn hc fun _ => hreach⟩
      · exact hother id t hne hid
  · rw [htasks] at ht
    refine ⟨⟨by rw [ha]; exact hle, ?_, ?_⟩, ?_⟩
    · intro x hx hxle
      rw [ha] at hxle
      by_cases hne : x.taskId = e.taskId
      · rw [ht, hne]; simp
      · rw [ht, Rec.put_other c.tasksById task hne]
        rcases applied_le_of_next h hn hx hxle with rfl | hxle
        · exact absurd rfl hne
        · exact hi.known x hx hxle
    · intro id t hid
      rw [ht] at hid
      rw [ha]
      by_cases hne : id = e.taskId
      · subst hne
        rw [Rec.put_self] at hid; cases hid
        exact ⟨htid, hr, fun x _ _ hxle => by rw [htl]; exact hxle⟩
      · rw [Rec.put_other c.tasksById task hne] at hid
        exact hother id t hne hid
    · intro id t hid
      by_cases hne : id = e.taskId
      · subst hne
        exact ⟨task, by rw [ht]; simp, by rw [htl]; exact hold t hid⟩
      · exact ⟨t, by rw [ht, Rec.put_other c.tasksById task hne]; exact hid, Nat.le_refl _⟩

end CodingAgent.L5.Web
