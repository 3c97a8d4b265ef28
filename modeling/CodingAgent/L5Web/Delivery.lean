import CodingAgent.L5Web.SseClient

/-!
# Exactly-once delivery across reconnects

The cursor is kept twice, in the client (`#lastAppliedId`) and in the reducer
(`appliedEventId`), and the two are advanced by different code: before the
callback of a diagnostic, after the callback of a message, by a recovery.

* `streamInv_step`: the two cursors agree whenever no callback, recovery or
  stop is under way, and every segment ascends from its cursor.
* `contigInv_step`: a segment is read off the log without gaps if the server
  sends every connection a gapless replay.
* `delivery_exactlyOnce`: both, over every reachable state.
-/
namespace CodingAgent.L5.Web
open CodingAgent.L1.Domain CodingAgent.IdLog

/-! ## The two cursors -/

namespace StreamState

/-- The last id handed to a callback, or the cursor of the segment. -/
def reached (s : StreamState) : Nat := endKey id s.segment.cursor s.segment.handed

/-- The reducer and the client stand where the segment ends. -/
structure Synced (s : StreamState) : Prop where
  applied : s.agent.appliedEventId = s.lastAppliedId
  reached : s.reached = s.lastAppliedId

/-- The cursors at each await. After a failed callback they may differ until
the bootstrap of the recovery is installed and the client has resumed. -/
def Cursors (s : StreamState) : Prop :=
  match s.pc with
  | .fetching | .reading | .waiting => s.Synced
  | .projecting persistedId dispatched =>
    s.reached = persistedId.getD s.lastAppliedId ∧
      (dispatched = true → s.agent.appliedEventId = persistedId.getD s.lastAppliedId)
  | .diagnosing dispatched =>
    s.reached = s.lastAppliedId ∧ (dispatched = true → s.agent.appliedEventId = s.lastAppliedId)
  | .installed _ cursor => s.agent.appliedEventId = cursor
  | .unstarted | .recovering _ | .unavailable _ | .ended => True

def segments (s : StreamState) : List Segment := s.past ++ [s.segment]

end StreamState

/-- The handed ids strictly increase, from above the cursor. -/
def Segment.Ascends (g : Segment) : Prop := Increasing id (g.cursor :: g.handed)

structure StreamInv (s : StreamState) : Prop where
  ascends : ∀ g ∈ s.segments, g.Ascends
  live : s.agent.connection ≠ .protocolError
  cursors : s.Cursors

theorem ascends_hand {g : Segment} (h : g.Ascends) {n : Nat} (hn : endKey id g.cursor g.handed < n) :
    Segment.Ascends ⟨g.cursor, g.handed ++ [n]⟩ := by
  have hle : ∀ m ∈ g.cursor :: g.handed, m ≤ endKey id g.cursor g.handed := by
    have hc : Contig id (g.cursor :: g.handed) g.cursor g.handed := by
      have hf := contig_filter h g.cursor
      have hg := List.pairwise_cons.1 h
      rw [List.filter_cons_of_neg (by simp), List.filter_eq_self.2 (by simpa using hg.1)] at hf
      exact hf
    intro m hm
    rcases List.mem_cons.1 hm with rfl | hm
    · exact contig_le_endKey hc
    · exact contig_key_le_endKey hc m hm
  show List.Pairwise _ ((g.cursor :: g.handed) ++ [n])
  refine List.pairwise_append.2 ⟨h, List.pairwise_singleton _ _, ?_⟩
  intro m hm x hx
  rw [List.mem_singleton.1 hx]
  exact Nat.lt_of_le_of_lt (hle m hm) hn

/-! ## What the dispatched actions do to the reducer's cursor -/

theorem updateSummaryForEvent_connection (c : AgentState) (e : TaskEvent) :
    (updateSummaryForEvent c e).connection = c.connection := by
  unfold updateSummaryForEvent
  repeat' split
  all_goals rfl

/-- The protocol error branch is not taken for an event beyond the cursor. -/
theorem eventReceived_applied {c : AgentState} {e : TaskEvent}
    (hv : e.schemaVersion = supportedSchemaVersion) (hlt : c.appliedEventId < e.id.get) :
    (agentReducer c (.eventReceived e)).appliedEventId = e.id.get ∧
      (agentReducer c (.eventReceived e)).connection = c.connection := by
  simp only [agentReducer, reducePersistedEvent, hv, ne_eq, not_true_eq_false, if_false,
    Nat.ne_of_gt hlt, Nat.not_lt_of_gt hlt, updateSummaryForEvent_connection, and_self]

theorem eventUnknown_applied {c : AgentState} {n : Nat} (kind : String) (hlt : c.appliedEventId < n) :
    (agentReducer c (.eventUnknown n kind supportedSchemaVersion)).appliedEventId = n ∧
      (agentReducer c (.eventUnknown n kind supportedSchemaVersion)).connection =
        c.connection := by
  simp [agentReducer, reduceUnknownEvent, Nat.ne_of_gt hlt, Nat.not_lt_of_gt hlt]

/-- Every action that is not a bootstrap or an event leaves the cursor alone. -/
theorem hookAction_applied {c : AgentState} {a : AgentAction} (h : a.isHookAction = true) :
    (agentReducer c a).appliedEventId = c.appliedEventId ∧
      (c.connection ≠ .protocolError → (agentReducer c a).connection ≠ .protocolError) := by
  cases a with
  | bootstrapReceived | eventReceived | eventUnknown | connectionChanged => cases h
  | bootstrapFailed reason protocol => cases protocol <;> simp_all [agentReducer, AgentAction.isHookAction]
  | bootstrapStarted | sessionExpired | repositoryUpserted | taskSelected | cancelStarted =>
    simp [agentReducer, withRepository, selectTask]
  | taskUpserted task =>
    simp only [agentReducer, upsertRestTask]
    repeat' split
    all_goals exact ⟨rfl, id⟩
  | detailReceived taskId generation detail =>
    simp only [agentReducer, installDetail]
    repeat' split
    all_goals exact ⟨rfl, id⟩
  | detailFailed taskId generation message =>
    simp only [agentReducer]
    split <;> exact ⟨rfl, id⟩
  | serviceReceived state generation =>
    simp only [agentReducer]
    split <;> exact ⟨rfl, id⟩
  | cancelSucceeded task =>
    simp only [agentReducer, reduceCancelSucceeded, upsertRestTask]
    repeat' split
    all_goals exact ⟨rfl, id⟩
  | cancelFailed taskId error =>
    simp only [agentReducer, reduceCancelFailed]
    repeat' split
    all_goals exact ⟨rfl, id⟩

/-! ## The invariant over one step -/

namespace StreamInv

variable {s : StreamState}

/-- Ending, or starting a recovery, asks nothing of the cursors. -/
theorem idle (h : StreamInv s) {s' : StreamState} (hseg : s'.segments = s.segments)
    (hlive : s'.agent.connection ≠ .protocolError)
    (hpc : s'.pc = .ended ∨ (∃ r, s'.pc = .recovering r) ∨ ∃ r, s'.pc = .unavailable r) :
    StreamInv s' where
  ascends := by rw [hseg]; exact h.ascends
  live := hlive
  cursors := by
    unfold StreamState.Cursors
    rcases hpc with hp | ⟨r, hp⟩ | ⟨r, hp⟩ <;> rw [hp] <;> trivial

/-- A step that leaves both cursors and the segments alone. -/
theorem kept (h : StreamInv s) {s' : StreamState} (hpc : s'.pc = s.pc)
    (hlast : s'.lastAppliedId = s.lastAppliedId) (hpast : s'.past = s.past)
    (hseg : s'.segment = s.segment) (happ : s'.agent.appliedEventId = s.agent.appliedEventId)
    (hlive : s'.agent.connection ≠ .protocolError) : StreamInv s' where
  ascends := by rw [StreamState.segments, hpast, hseg]; exact h.ascends
  live := hlive
  cursors := by
    have hsync : s.Synced → s'.Synced := fun hs =>
      ⟨by rw [happ, hlast]; exact hs.applied,
        by rw [StreamState.reached, hseg, hlast]; exact hs.reached⟩
    have hc := h.cursors
    unfold StreamState.Cursors at hc ⊢
    simp only [StreamState.reached, hseg, happ, hlast] at hc ⊢
    rw [hpc]
    split <;> rename_i hp <;> simp only [hp] at hc
    all_goals first | exact hsync hc | exact hc

theorem end_ (h : StreamInv s) : StreamInv s.end_ :=
  h.idle rfl h.live (.inl rfl)

theorem exit_protocol (h : StreamInv s) (reason : SseProtocolError) :
    StreamInv (s.exit (.protocol reason)) :=
  h.idle rfl (by simp [StreamState.exit, StreamState.onState, StreamState.dispatch, agentReducer])
    (.inr (.inl ⟨reason, rfl⟩))

theorem exit_sessionExpired (h : StreamInv s) : StreamInv (s.exit .sessionExpired) :=
  h.idle rfl (by simp [StreamState.exit, StreamState.onState, StreamState.dispatch,
    StreamState.expireSession, agentReducer]) (.inl rfl)

/-- A transient exit reconnects from the cursor where the client stands. -/
theorem exit_transient (h : ∀ g ∈ s.segments, g.Ascends) (hs : s.Synced)
    (reason : TransientReason) : StreamInv (s.exit (.transient reason)) where
  ascends := h
  live := by simp [StreamState.exit, StreamState.onState, StreamState.dispatch, agentReducer]
  cursors := ⟨hs.applied, hs.reached⟩

theorem exit (h : StreamInv s) (hs : s.Synced) (e : ConnectionExit) : StreamInv (s.exit e) := by
  cases e with
  | stopped => exact h.end_
  | sessionExpired => exact h.exit_sessionExpired
  | transient reason => exact exit_transient h.ascends hs reason
  | protocol reason => exact h.exit_protocol reason

theorem connect (h : ∀ g ∈ s.segments, g.Ascends) (hs : s.Synced) : StreamInv s.connect where
  ascends := h
  live := by simp [StreamState.connect, StreamState.onState, StreamState.dispatch, agentReducer]
  cursors := ⟨hs.applied, hs.reached⟩

theorem callbackFailed (h : StreamInv s) (message : String) :
    StreamInv (s.callbackFailed message) := by
  unfold StreamState.callbackFailed
  split
  · exact h.end_
  · exact h.exit_protocol _

theorem recoveryFailed (h : StreamInv s) (reason : SseProtocolError) (expired : Bool) :
    StreamInv (s.recoveryFailed reason expired) := by
  unfold StreamState.recoveryFailed
  repeat' split
  · exact h.end_
  · exact h.exit_sessionExpired
  · exact h.idle rfl
      (by simp [StreamState.onState, StreamState.dispatch, agentReducer]) (.inr (.inr ⟨reason, rfl⟩))

theorem ascends_hand (h : StreamInv s) (hs : s.Synced) {n : Nat} (hn : s.lastAppliedId < n) :
    ∀ g ∈ s.past ++ [⟨s.segment.cursor, s.segment.handed ++ [n]⟩], g.Ascends := by
  intro g hg
  rcases List.mem_append.1 hg with hg | hg
  · exact h.ascends g (List.mem_append_left _ hg)
  · rw [List.mem_singleton.1 hg]
    refine Web.ascends_hand (h.ascends _ (by simp [StreamState.segments])) ?_
    rw [← hs.reached] at hn
    exact hn

/-- The callback gets an event beyond the cursor, which the reducer accepts. -/
theorem applyFrame (h : StreamInv s) (hs : s.Synced) (frame : SseFrame)
    (dispatched : Bool) : StreamInv (s.applyFrame frame dispatched) := by
  unfold StreamState.applyFrame
  split
  · exact h.exit_protocol _
  · exact h.exit_protocol _
  · rename_i decoded hreset hd
    have hsound := decodeFrame_sound hd
    split
    · exact h
    · rename_i hne
      split
      · exact h.exit_protocol _
      · rename_i hge
        -- from here on a persisted id is beyond the cursor
        have hlt : ∀ n, decoded.persistedId = some n → s.lastAppliedId < n := by
          intro n hn
          rw [hn] at hne hge
          simp only [Option.some.injEq, Option.any_some, decide_eq_true_eq] at hne hge
          omega
        cases decoded with
        | reset n => exact absurd rfl (hreset n)
        | diagnostic d n =>
          obtain ⟨hdn, -⟩ := hsound
          have hn := hlt n rfl
          refine ⟨?_, ?_, ?_⟩
          · cases dispatched <;> exact h.ascends_hand hs hn
          · cases dispatched with
            | false => exact h.live
            | true =>
              have := (eventUnknown_applied d.event (hs.applied ▸ hdn ▸ hn)).2
              exact fun hc => h.live (this.symm.trans hc)
          · cases dispatched with
            | false => exact ⟨endKey_snoc .., by simp⟩
            | true =>
              have := (eventUnknown_applied d.event (hs.applied ▸ hdn ▸ hn)).1
              exact ⟨endKey_snoc .., fun _ => this.trans hdn⟩
        | message m p =>
          cases m with
          | serviceState state generation =>
            cases hsound
            have ha := hookAction_applied (c := s.agent) (a := .serviceReceived state generation) rfl
            have hseg : s.segment = ⟨s.segment.cursor, s.segment.handed ++ []⟩ := by simp
            refine ⟨?_, ?_, ?_⟩
            · have := h.ascends
              rw [StreamState.segments, hseg] at this
              cases dispatched <;> exact this
            · cases dispatched with
              | false => exact h.live
              | true => exact ha.2 h.live
            · have hr : endKey id s.segment.cursor (s.segment.handed ++ []) = s.lastAppliedId := by
                rw [List.append_nil]; exact hs.reached
              cases dispatched with
              | false => exact ⟨hr, by simp⟩
              | true => exact ⟨hr, fun _ => ha.1.trans hs.applied⟩
          | taskEvent e =>
            obtain ⟨rfl, hv, -⟩ := hsound
            have hn := hlt e.id.get rfl
            have ha := eventReceived_applied hv (hs.applied ▸ hn)
            refine ⟨?_, ?_, ?_⟩
            · cases dispatched <;> exact h.ascends_hand hs hn
            · cases dispatched with
              | false => exact h.live
              | true => exact fun hc => h.live (ha.2.symm.trans hc)
            · cases dispatched with
              | false => exact ⟨endKey_snoc .., by simp⟩
              | true => exact ⟨endKey_snoc .., fun _ => ha.1⟩

theorem callback (h : StreamInv s) {ok : Bool} {s' : StreamState} (hs : s.callback ok = some s') :
    StreamInv s' := by
  have hc := h.cursors
  unfold StreamState.Cursors at hc
  unfold StreamState.callback at hs
  split at hs
  · rename_i p hp
    rw [hp] at hc
    cases hs
    exact ⟨h.ascends, h.live, ⟨hc.2 rfl, hc.1⟩⟩
  · rename_i hp
    rw [hp] at hc
    cases hs
    exact ⟨h.ascends, h.live, ⟨hc.2 rfl, hc.1⟩⟩
  · cases hs; exact h.callbackFailed _
  · cases hs; exact h.callbackFailed _
  · cases hs

/-- A recovery opens a segment at its cursor, where the reducer already is. -/
theorem resume (h : StreamInv s) {reason : SseProtocolError} {cursor : Nat}
    (hpc : s.pc = .installed reason cursor) : StreamInv (s.resume reason cursor) := by
  have hc := h.cursors
  unfold StreamState.Cursors at hc
  rw [hpc] at hc
  unfold StreamState.resume
  split
  · exact h.end_
  · split
    · refine exit_transient ?_ ⟨hc, rfl⟩ _
      intro g hg
      rcases List.mem_append.1 hg with hg | hg
      · exact h.ascends g hg
      · rw [List.mem_singleton.1 hg]; exact List.pairwise_singleton _ _
    · exact h.recoveryFailed reason false

theorem start (h : StreamInv s) (b : BootstrapResponse) : StreamInv (s.start b) := by
  unfold StreamState.start
  split
  · refine connect ?_ ⟨rfl, rfl⟩
    intro g hg
    rcases List.mem_append.1 hg with hg | hg
    · exact h.ascends g (List.mem_append_left _ hg)
    · rw [List.mem_singleton.1 hg]; exact List.pairwise_singleton _ _
  · exact h.idle rfl (by simp [StreamState.dispatch, agentReducer]) (.inl rfl)

theorem whileReading (h : StreamInv s) {next s' : StreamState}
    (hnext : s.Synced → StreamInv next) (hs : s.whileReading next = some s') :
    StreamInv s' := by
  have hc := h.cursors
  unfold StreamState.Cursors at hc
  unfold StreamState.whileReading at hs
  split at hs
  · rename_i hp
    rw [hp] at hc
    cases hs
    split
    · exact h.end_
    · exact hnext hc
  · cases hs

end StreamInv

theorem streamInv_step {s s' : StreamState} {l : StreamLabel} (h : StreamInv s)
    (hs : streamNext s l = some s') : StreamInv s' := by
  have hc := h.cursors
  unfold StreamState.Cursors at hc
  cases l with
  | append n =>
    simp only [streamNext] at hs
    split at hs
    · cases hs; exact h.kept rfl rfl rfl rfl rfl h.live
    · cases hs
  | stop => cases hs; exact h.kept rfl rfl rfl rfl rfl h.live
  | view a =>
    simp only [streamNext] at hs
    split at hs
    · rename_i ha
      cases hs
      obtain ⟨happ, hlive⟩ := hookAction_applied (c := s.agent) ha
      exact h.kept rfl rfl rfl rfl happ (hlive h.live)
    · cases hs
  | initialized b =>
    simp only [streamNext] at hs
    split at hs
    · cases hs
      split
      · exact h.end_
      · exact h.start b
    · cases hs
  | initializeFailed expired reason =>
    simp only [streamNext] at hs
    split at hs
    · cases hs
      repeat' split
      · exact h.end_
      · exact h.exit_sessionExpired
      · exact h.idle rfl (by simp [StreamState.dispatch, agentReducer]) (.inl rfl)
    · cases hs
  | fetched result =>
    simp only [streamNext] at hs
    split at hs
    · rename_i hp
      rw [hp] at hc
      cases hs
      repeat' split
      · exact h.end_
      · exact h.exit hc _
      · exact ⟨h.ascends,
          by simp [StreamState.onState, StreamState.dispatch, agentReducer],
          ⟨hc.applied, hc.reached⟩⟩
    · cases hs
  | frame frame dispatched =>
    refine h.whileReading (fun hsync => ?_) hs
    have h' : StreamInv { s with sent := sentAfter s.sent frame } :=
      h.kept rfl rfl rfl rfl rfl h.live
    exact h'.applyFrame ⟨hsync.applied, hsync.reached⟩ frame dispatched
  | readFailed => exact h.whileReading (fun hsync => h.exit hsync _) hs
  | parserFailed error => exact h.whileReading (fun hsync => h.exit hsync _) hs
  | eof => exact h.whileReading (fun hsync => h.exit hsync _) hs
  | callback ok => exact h.callback hs
  | waited ok =>
    simp only [streamNext] at hs
    split at hs
    · rename_i hp
      rw [hp] at hc
      cases hs
      split
      · exact h.end_
      · exact StreamInv.connect h.ascends hc
    · rename_i reason hp
      cases hs
      split
      · exact h.end_
      · exact h.idle rfl h.live (.inr (.inl ⟨reason, rfl⟩))
    · cases hs
  | bootstrapReceived b =>
    simp only [streamNext] at hs
    split at hs
    · cases hs
      split
      · exact h.end_
      · exact ⟨h.ascends, by simp [StreamState.dispatch, agentReducer, installBootstrap], rfl⟩
    · cases hs
  | recoveryFailed expired =>
    simp only [streamNext] at hs
    split at hs
    · cases hs; exact h.recoveryFailed _ expired
    · cases hs
  | resumed =>
    simp only [streamNext] at hs
    split at hs
    · rename_i hp; cases hs; exact h.resume hp
    · cases hs

theorem streamInv_init (log : List Nat) : StreamInv (.init log) where
  ascends := by
    intro g hg
    rw [List.mem_singleton.1 hg]
    exact List.pairwise_singleton _ _
  live := by simp [StreamState.init, initialAgentState]
  cursors := trivial

theorem streamInv_inductive : stream.Inductive StreamInv where
  init s hs := by
    obtain ⟨log, -, rfl⟩ := hs
    exact streamInv_init log
  step _ _ _ h hs := streamInv_step h hs

/-! ## Against a gapless replay -/

/-- On an open connection the server's cursor is where the segment ends. -/
def StreamState.Level (s : StreamState) : Prop :=
  match s.pc with
  | .reading | .projecting .. | .diagnosing _ => s.sent = s.reached
  | _ => True

structure ContigInv (s : StreamState) : Prop where
  contig : ∀ g ∈ s.segments, Contig id s.log g.cursor g.handed
  level : s.Level

namespace ContigInv

variable {s : StreamState}

/-- A step that hands nothing over and opens no connection. -/
theorem kept (h : ContigInv s) {s' : StreamState} (hlog : s'.log = s.log)
    (hpast : s'.past = s.past) (hseg : s'.segment = s.segment) (hlevel : s'.Level) :
    ContigInv s' where
  contig := by rw [StreamState.segments, hpast, hseg, hlog]; exact h.contig
  level := hlevel

theorem same (h : ContigInv s) {s' : StreamState} (hlog : s'.log = s.log)
    (hpast : s'.past = s.past) (hseg : s'.segment = s.segment) (hpc : s'.pc = s.pc)
    (hsent : s'.sent = s.sent) : ContigInv s' := by
  refine h.kept hlog hpast hseg ?_
  have hl := h.level
  unfold StreamState.Level at hl ⊢
  rw [hpc, hsent]
  simp only [StreamState.reached, hseg]
  exact hl

theorem end_ (h : ContigInv s) : ContigInv s.end_ := h.kept rfl rfl rfl trivial

theorem exit (h : ContigInv s) (e : ConnectionExit) : ContigInv (s.exit e) := by
  cases e <;> exact h.kept rfl rfl rfl trivial

theorem callbackFailed (h : ContigInv s) (message : String) :
    ContigInv (s.callbackFailed message) := by
  unfold StreamState.callbackFailed
  split
  · exact h.end_
  · exact h.exit _

theorem recoveryFailed (h : ContigInv s) (reason : SseProtocolError) (expired : Bool) :
    ContigInv (s.recoveryFailed reason expired) := by
  unfold StreamState.recoveryFailed
  repeat' split
  · exact h.end_
  · exact h.exit _
  · exact h.kept rfl rfl rfl trivial

theorem hand_next (h : ContigInv s) {n : Nat} (hn : Next id s.log s.reached n) :
    ∀ g ∈ s.past ++ [⟨s.segment.cursor, s.segment.handed ++ [n]⟩],
      Contig id s.log g.cursor g.handed := by
  intro g hg
  rcases List.mem_append.1 hg with hg | hg
  · exact h.contig g (List.mem_append_left _ hg)
  · rw [List.mem_singleton.1 hg]
    exact contig_snoc (h.contig s.segment (by simp [StreamState.segments])) hn

/-- A frame that is handed over is the next event of the log. -/
theorem applyFrame (h : ContigInv s) (hs : s.Synced) (hpc : s.pc = .reading) {frame : SseFrame}
    {dispatched : Bool} (hobeys : Obeys s (.frame frame dispatched)) :
    ContigInv (StreamState.applyFrame { s with sent := sentAfter s.sent frame } frame
      dispatched) := by
  have hl := h.level
  unfold StreamState.Level at hl
  rw [hpc] at hl
  unfold StreamState.applyFrame
  split
  · exact h.kept rfl rfl rfl trivial
  · exact h.kept rfl rfl rfl trivial
  · rename_i decoded hreset hd
    have hsent : sentAfter s.sent frame = max s.sent (decoded.persistedId.getD 0) := by
      simp only [sentAfter, hd]
    simp only [Obeys, hd] at hobeys
    split
    · rename_i heq
      refine h.same rfl rfl rfl rfl ?_
      show sentAfter s.sent frame = s.sent
      have : s.sent = s.lastAppliedId := hl.trans hs.reached
      rw [hsent, heq, Option.getD_some, this, Nat.max_self]
    · rename_i hne
      split
      · exact h.kept rfl rfl rfl trivial
      · rename_i hge
        -- what is handed over is beyond the server's cursor, hence the next event
        have hnext : ∀ n, decoded.persistedId = some n → Next id s.log s.reached n ∧
            sentAfter s.sent frame = endKey id s.segment.cursor (s.segment.handed ++ [n]) := by
          intro n hn
          rw [hn] at hne hge
          simp only [Option.some.injEq, Option.any_some, decide_eq_true_eq] at hne hge
          have hlast : s.sent = s.lastAppliedId := hl.trans hs.reached
          rcases hobeys n hn with hle | hnx
          · omega
          · rw [← hl]
            refine ⟨hnx, ?_⟩
            rw [hsent, hn, Option.getD_some, endKey_snoc]
            exact Nat.max_eq_right (Nat.le_of_lt hnx.lt)
        cases decoded with
        | reset n => exact absurd rfl (hreset n)
        | diagnostic d n =>
          obtain ⟨hn, hsn⟩ := hnext n rfl
          cases dispatched
          all_goals exact ⟨h.hand_next hn, hsn⟩
        | message m p =>
          cases p with
          | none =>
            have hseg : s.segment = ⟨s.segment.cursor, s.segment.handed ++ []⟩ := by simp
            have hsn : sentAfter s.sent frame = endKey id s.segment.cursor (s.segment.handed ++ []) := by
              rw [hsent, List.append_nil]
              simpa [DecodedFrame.persistedId, StreamState.reached] using hl
            have hcontig := h.contig
            rw [StreamState.segments, hseg] at hcontig
            cases m <;> cases dispatched
            all_goals exact ⟨hcontig, hsn⟩
          | some n =>
            obtain ⟨hn, hsn⟩ := hnext n rfl
            cases m <;> cases dispatched
            all_goals exact ⟨h.hand_next hn, hsn⟩

theorem whileReading (h : ContigInv s) {next s' : StreamState}
    (hnext : s.pc = .reading → ContigInv next) (hs : s.whileReading next = some s') :
    ContigInv s' := by
  unfold StreamState.whileReading at hs
  split at hs
  · rename_i hp
    cases hs
    split
    · exact h.end_
    · exact hnext hp
  · cases hs

/-- Where a segment opens, nothing has been handed over yet. -/
theorem fresh (h : ContigInv s) {s' : StreamState} {cursor : Nat} (hlog : s'.log = s.log)
    (hpast : ∀ g ∈ s'.past, g ∈ s.segments) (hseg : s'.segment = ⟨cursor, []⟩) (hlevel : s'.Level) :
    ContigInv s' where
  contig := by
    intro g hg
    rw [hlog]
    rcases List.mem_append.1 hg with hg | hg
    · exact h.contig g (hpast g hg)
    · rw [List.mem_singleton.1 hg, hseg]; trivial
  level := hlevel

end ContigInv

theorem contigInv_step {s s' : StreamState} {l : StreamLabel} (hi : StreamInv s) (h : ContigInv s)
    (hobeys : Obeys s l) (hs : streamNext s l = some s') : ContigInv s' := by
  have hc := hi.cursors
  unfold StreamState.Cursors at hc
  cases l with
  | append n =>
    simp only [streamNext] at hs
    split at hs
    · rename_i hn
      cases hs
      have hb : Beyond id s.log [n] := by
        intro x hx y hy
        rw [List.mem_singleton.1 hy]
        simpa using List.all_eq_true.1 hn x hx
      exact ⟨fun g hg => contig_grow hb (h.contig g hg), h.level⟩
    · cases hs
  | stop => cases hs; exact h.same rfl rfl rfl rfl rfl
  | view a =>
    simp only [streamNext] at hs
    split at hs
    · cases hs; exact h.same rfl rfl rfl rfl rfl
    · cases hs
  | initialized b =>
    simp only [streamNext] at hs
    split at hs
    · cases hs
      split
      · exact h.end_
      · unfold StreamState.start
        split
        · exact h.fresh rfl (fun g hg => List.mem_append_left _ hg) rfl trivial
        · exact h.kept rfl rfl rfl trivial
    · cases hs
  | initializeFailed expired reason =>
    simp only [streamNext] at hs
    split at hs
    · cases hs
      repeat' split
      · exact h.end_
      · exact h.exit _
      · exact h.kept rfl rfl rfl trivial
    · cases hs
  | fetched result =>
    simp only [streamNext] at hs
    split at hs
    · rename_i hp
      rw [hp] at hc
      cases hs
      repeat' split
      · exact h.end_
      · exact h.exit _
      · exact h.kept rfl rfl rfl hc.reached.symm
    · cases hs
  | frame frame dispatched =>
    refine h.whileReading (fun hp => ?_) hs
    rw [hp] at hc
    exact h.applyFrame hc hp hobeys
  | readFailed => exact h.whileReading (fun _ => h.exit _) hs
  | parserFailed error => exact h.whileReading (fun _ => h.exit _) hs
  | eof => exact h.whileReading (fun _ => h.exit _) hs
  | callback ok =>
    have hl := h.level
    unfold StreamState.Level at hl
    simp only [streamNext, StreamState.callback] at hs
    split at hs
    · rename_i hp
      rw [hp] at hl
      cases hs
      exact h.kept rfl rfl rfl hl
    · rename_i hp
      rw [hp] at hl
      cases hs
      exact h.kept rfl rfl rfl hl
    · cases hs; exact h.callbackFailed _
    · cases hs; exact h.callbackFailed _
    · cases hs
  | waited ok =>
    simp only [streamNext] at hs
    split at hs
    · cases hs
      split
      · exact h.end_
      · exact h.kept rfl rfl rfl trivial
    · cases hs
      split
      · exact h.end_
      · exact h.kept rfl rfl rfl trivial
    · cases hs
  | bootstrapReceived b =>
    simp only [streamNext] at hs
    split at hs
    · cases hs
      split
      · exact h.end_
      · exact h.kept rfl rfl rfl trivial
    · cases hs
  | recoveryFailed expired =>
    simp only [streamNext] at hs
    split at hs
    · cases hs; exact h.recoveryFailed _ expired
    · cases hs
  | resumed =>
    simp only [streamNext] at hs
    split at hs
    · cases hs
      unfold StreamState.resume
      repeat' split
      · exact h.end_
      · exact h.fresh rfl (fun g hg => hg) rfl trivial
      · exact h.recoveryFailed _ false
    · cases hs

theorem contigInv_inductive : (stream.restrict Obeys).Inductive fun s => StreamInv s ∧ ContigInv s :=
  (streamInv_inductive.restrict Obeys).strengthen
    (fun s hs => by
      obtain ⟨log, -, rfl⟩ := hs
      refine ⟨fun g hg => ?_, trivial⟩
      rw [List.mem_singleton.1 hg]
      trivial)
    fun _ _ _ hi _ h hs => contigInv_step hi h hs.1 hs.2

/-- No frame, callback or recovery is under way. -/
def StreamState.BetweenFrames (s : StreamState) : Prop :=
  s.pc = .fetching ∨ s.pc = .reading ∨ s.pc = .waiting

/-- **Exactly-once delivery.** Whatever the server sends and wherever
connections, callbacks and recoveries fail, the ids handed over since a start
or a recovery strictly increase from its cursor, the reducer stands at the
cursor of the client between frames and never refuses an event; and if every
connection is a gapless replay, the ids are the events of the log from that
cursor on, each once. -/
theorem delivery_exactlyOnce :
    (∀ s, stream.Reachable s →
      (∀ g ∈ s.segments, g.Ascends) ∧
        (s.BetweenFrames → s.agent.appliedEventId = s.lastAppliedId) ∧
        s.agent.connection ≠ .protocolError) ∧
    ∀ s, (stream.restrict Obeys).Reachable s →
      ∀ g ∈ s.segments, Contig id s.log g.cursor g.handed := by
  constructor
  · intro s hs
    have h := streamInv_inductive.reachable s hs
    refine ⟨h.ascends, fun hb => ?_, h.live⟩
    have hc := h.cursors
    unfold StreamState.Cursors at hc
    rcases hb with hp | hp | hp <;> rw [hp] at hc <;> exact hc.applied
  · intro s hs
    exact (contigInv_inductive.reachable s hs).2.contig

/-! ## A run with a cut, a duplicate, an unknown kind and a recovery -/

def sampleFrame (id : Nat) (text kind : String) (payload : Option TaskEventPayload) : SseFrame :=
  { event := kind, id := some text,
    data := .record { schemaVersion := some 1, kind := some kind, id := some id,
                      taskId := some ⟨5⟩, createdAt := some .epoch, payload } }

def sampleBootstrap (cursor : Nat) : BootstrapResponse :=
  { repositories := [], tasks := [], latestEventId := cursor, serviceState := .ready,
    serviceStateGeneration := 0 }

def sampleStream : List StreamLabel :=
  let plan := some (.planUpdated ⟨0, []⟩)
  let ok := .fetched (.response 200 (some "text/event-stream") true)
  [.initialized (sampleBootstrap 0), ok,
   .frame (sampleFrame 1 "1" "plan.updated" plan) true, .callback true,
   .frame (sampleFrame 1 "1" "plan.updated" plan) true,
   .frame (sampleFrame 2 "2" "plan.revised" none) true, .callback true,
   .readFailed, .waited true, .append 4, ok,
   .frame (sampleFrame 4 "4" "plan.updated" plan) false, .callback false,
   .bootstrapReceived (sampleBootstrap 4), .resumed]

theorem delivery_exactlyOnce_sample :
    ∃ s, (stream.restrict Obeys).Reachable s ∧ s.segments = [⟨0, [1, 2, 4]⟩, ⟨4, []⟩] ∧
      (∀ g ∈ s.segments, g.Ascends ∧ Contig id s.log g.cursor g.handed) ∧
      s.agent.appliedEventId = s.lastAppliedId := by
  have hrun : (LTS.exec (LTS.guard Obeys streamNext) (.init [1, 2]) sampleStream).map
      (fun s => (s.segments, s.pc)) = some ([⟨0, [1, 2, 4]⟩, ⟨4, []⟩], .waiting) := by decide
  obtain ⟨s, hs, heq⟩ := Option.map_eq_some_iff.1 hrun
  have hr : (stream.restrict Obeys).Reachable s :=
    LTS.reachable_of_exec_guard ⟨[1, 2], by simp [Increasing], rfl⟩ hs
  obtain ⟨hseg, hpc⟩ := Prod.mk.inj heq
  have h := delivery_exactlyOnce.1 s (LTS.Reachable.of_restrict hr)
  exact ⟨s, hr, hseg, fun g hg => ⟨h.1 g hg, delivery_exactlyOnce.2 s hr g hg⟩,
    h.2.1 (.inr (.inr hpc))⟩

end CodingAgent.L5.Web
