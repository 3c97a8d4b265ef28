import CodingAgent.L4App.Invariants

/-!
# Every running task is covered (`coding-agent-app/src/task_manager.rs`)

* `Scans`: what a scan has still to claim was never started, and a runner
  exists only for a started task.
* `Covered`: while the manager is neither degraded nor frozen, a running task
  has an entry. A claim takes its entry before its write and a finish drops it
  after its own, so the entry is there around both; the degraded mode drops
  entries of running tasks, and ends only after a recovery left none.
* `manager_covers`: the result, over any messages and any replies of the
  writer.
-/
namespace CodingAgent.L4.App
open CodingAgent.L1.Domain CodingAgent.L2.Store

variable {s s' : Primary} {l : Label}

/-! ## Scans -/

namespace ManagerPc

/-- The tasks a scan has still to claim, that of the claim in progress first. -/
def toClaim : ManagerPc → List TaskId
  | .claimLoop queue _ => queue.map (·.id)
  | .write (.claim task _ rest _) _ => task.id :: rest.map (·.id)
  | _ => []

/-- The task of an applied claim, and its row. -/
def claimReply : ManagerPc → Option (Task × Task)
  | .write (.claim task _ _ _) (.replied (some (.transition (.applied current _))))
  | .write (.claim task _ _ _) (.runningCommitted current) => some (task, current)
  | _ => none

@[simp] theorem reply_toClaim (pc : ManagerPc) (reply : Option Reply) :
    (pc.reply reply).toClaim = pc.toClaim := by
  unfold ManagerPc.reply
  split
  · rename_i job
    cases job <;> rfl
  · rfl

/-- Only the reply to a claim is an applied claim. -/
theorem reply_claimReply {job : ManagerWrite} {reply : Option Reply} {task current : Task}
    (h : ((ManagerPc.write job .waiting).reply reply).claimReply = some (task, current)) :
    ∃ repository rest repositories eventId, job = .claim task repository rest repositories ∧
      reply = some (.transition (.applied current eventId)) := by
  change (ManagerPc.write job (.replied reply)).claimReply = _ at h
  unfold claimReply at h
  split at h
  · rename_i heq
    cases h
    simp only [ManagerPc.write.injEq, WriteStage.replied.injEq] at heq
    exact ⟨_, _, _, _, heq⟩
  · rename_i heq
    cases heq
  · cases h

end ManagerPc

structure Scans (board : Board) (runners : TaskId → Option Runner) (pc : ManagerPc) : Prop where
  started : ∀ id, (runners id).isSome → board.Started id
  fresh : ∀ id ∈ pc.toClaim, runners id = none
  nodup : pc.toClaim.Nodup
  claim : ∀ task current, pc.claimReply = some (task, current) →
    current.id = task.id ∧ board.Started task.id

namespace Scans

variable {board board' : Board} {runners runners' : TaskId → Option Runner} {pc pc' : ManagerPc}

/-- A turn that leaves the claims, or goes on with the rest of them. -/
theorem turn (h : Scans board runners pc) (hr : ∀ id, (runners' id).isSome → (runners id).isSome)
    (hpc : pc'.toClaim.Sublist pc.toClaim) (hc : pc'.claimReply = none) :
    Scans board runners' pc' := by
  refine ⟨fun id hid => h.started id (hr id hid), fun id hid => ?_, h.nodup.sublist hpc, ?_⟩
  · have hnone := h.fresh id (hpc.subset hid)
    cases hid' : runners' id with
    | none => rfl
    | some r =>
      have := hr id (by rw [hid']; rfl)
      rw [hnone] at this
      cases this
  · intro task current hcl
    rw [hc] at hcl
    cases hcl

/-- The pc and the runners are the same ones. -/
theorem mono (h : Scans board runners pc) (hb : ∀ id, board.Started id → board'.Started id)
    (hr : ∀ id, (runners' id).isSome → (runners id).isSome) : Scans board' runners' pc := by
  refine ⟨fun id hid => hb id (h.started id (hr id hid)), fun id hid => ?_, h.nodup, ?_⟩
  · have hnone := h.fresh id hid
    cases hid' : runners' id with
    | none => rfl
    | some r =>
      have := hr id (by rw [hid']; rfl)
      rw [hnone] at this
      cases this
  · exact fun task current hcl => (h.claim task current hcl).imp id (hb _)

end Scans

/-- A runner that goes on is no new one. -/
theorem put_some_isSome {runners : TaskId → Option Runner} {id : TaskId} {r r' : Runner}
    (h : runners id = some r) (x : TaskId) (hx : (put runners id (some r') x).isSome) :
    (runners x).isSome := by
  by_cases hid : x = id
  · rw [hid, h]; rfl
  · rwa [put_ne hid] at hx

theorem replyAppend_isSome {taskId : TaskId} {event : RunnerEvent} {awaited : Bool}
    {result : AppendResult} (x : TaskId)
    (hx : ((s.replyAppend taskId event awaited result).runners x).isSome) : (s.runners x).isSome := by
  simp only [Primary.replyAppend] at hx
  split at hx
  · by_cases hid : x = taskId
    · rw [hid, put_self, Option.isSome_map] at hx
      rwa [hid]
    · rwa [put_ne hid] at hx
  · exact hx

/-- The queue of a scan: rows that are queued, each once. -/
theorem claimQueue_queued {db db' : Db} {log : List TaskEvent} (h : Reflects db log)
    {snapshot : BootstrapSnapshot} (hs : bootstrapSnapshot db = .ok (snapshot, db')) :
    ((claimQueue snapshot).map (·.id)).Nodup ∧
      ∀ id ∈ (claimQueue snapshot).map (·.id), db.board.status id = some .queued := by
  obtain ⟨snapshot', hs', -, hmem, hnodup⟩ := bootstrapSnapshot_reflects h
  rw [hs, Except.ok.injEq, Prod.mk.injEq] at hs'
  obtain ⟨rfl, -⟩ := hs'
  have hperm : (claimQueue snapshot).Perm (snapshot.tasks.filter fun t => t.status = .queued) :=
    List.perm_insertionSort ..
  constructor
  · rw [(hperm.map _).nodup_iff]
    exact hnodup.sublist (List.filter_sublist.map _)
  · intro id hid
    obtain ⟨t, ht, rfl⟩ := List.mem_map.1 hid
    obtain ⟨ht, hq⟩ := List.mem_filter.1 (hperm.mem_iff.1 ht)
    rw [board_reflects h, status_boardOf ((hmem t).1 ht), of_decide_eq_true hq]

theorem scans_step (hs : Step s l s') (hstore : ∃ log, Reflects s.db log)
    (hl : Linked s.writer s.manager.pc) (h : Scans s.db.board s.runners s.manager.pc) :
    Scans s'.db.board s'.runners s'.manager.pc := by
  have keep : ∀ id, s.db.board.Started id → s'.db.board.Started id :=
    fun id => step_started hs hstore
  cases hs with
  | wroteCoordinator hw hx | wroteHandler hw hx => exact h.mono keep fun _ => id
  | @wroteManager env repositoryId fails operation writer outcome db hw hx =>
    obtain ⟨-, hwrote⟩ := execute_wrote hstore hx
    have hm := h.mono keep fun _ => id
    refine ⟨hm.started, ?_, ?_, ?_⟩
    · rw [goto_pc, ManagerPc.reply_toClaim]; exact hm.fresh
    · rw [goto_pc, ManagerPc.reply_toClaim]; exact hm.nodup
    · rw [hw] at hl
      obtain ⟨job, hpc, rfl, -⟩ := hl.head
      rw [goto_pc, hpc]
      intro task current hcl
      obtain ⟨repository, rest, repositories, eventId, rfl, hrep⟩ := ManagerPc.reply_claimReply hcl
      rw [hrep] at hwrote
      obtain ⟨-, hid, -, hset⟩ := hwrote.applied
      refine ⟨hid, .running, ?_, by decide⟩
      rw [hset, Board.set_status, if_pos rfl]
      rfl
  | notified | ticked | turnEnded | scanStarted | cancelRejected | cancelStarted | appendStarted
  | finishIgnored | finishDropped | finishStarted | finalizeRejected | finalized | quiesceRejected
  | quiesceRefused | quiesceStarted | scanStopped | claimAborted | claimDropped | claimFailed
  | cancelAnswered | cancelQueued | cancelAccepted | finished | finishFailed | quiesced =>
    exact h.turn (fun _ => id) (List.nil_sublist _) rfl
  | appendRejected | appended => exact h.turn replyAppend_isSome (List.nil_sublist _) rfl
  | appendFailed => exact h.turn replyAppend_isSome (List.nil_sublist _) rfl
  | scanned hpc hsnap =>
    obtain ⟨log, hlog⟩ := hstore
    obtain ⟨hnodup, hq⟩ := claimQueue_queued hlog hsnap
    refine ⟨h.started, fun id hid => ?_, hnodup, fun _ _ (hcl : none = some _) => (nomatch hcl)⟩
    cases hr : s.runners id with
    | none => rfl
    | some r =>
      obtain ⟨status, hst, hne⟩ := h.started id (by rw [hr]; rfl)
      rw [hq id hid] at hst
      cases hst
      exact absurd rfl hne
  | claimSkipped hpc | claimConflict hpc =>
    refine h.turn (fun _ => id) ?_ rfl
    rw [hpc]
    exact List.sublist_cons_self ..
  | claimStarted hpc => exact h.turn (fun _ => id) (by rw [hpc]; exact .refl _) rfl
  | claimChecked hpc hst =>
    rcases hst with ⟨rfl, rfl⟩ | ⟨rfl, rfl⟩ <;>
      exact h.turn (fun _ => id) (by rw [hpc]; exact .refl _) rfl
  | claimCommitted hpc =>
    rw [hpc] at h
    exact ⟨h.started, h.fresh, h.nodup, h.claim⟩
  | @sent job hpc =>
    refine h.turn (fun _ => id) ?_ ?_
    · rw [hpc]
      cases job <;> exact .refl _
    · cases job <;> rfl
  | @claimSpawned task current repository rest repositories hpc =>
    rw [hpc] at h
    obtain ⟨hid, hst⟩ := h.claim task current rfl
    obtain ⟨hnot, hnodup⟩ := List.nodup_cons.1 h.nodup
    refine ⟨fun x (hx : (put s.runners current.id _ x).isSome) => ?_, fun x hx => ?_, hnodup,
      fun _ _ (hcl : none = some _) => (nomatch hcl)⟩
    · by_cases hxc : x = current.id
      · rw [hxc, hid]; exact hst
      · rw [put_ne hxc] at hx
        exact h.started x hx
    · show put s.runners current.id _ x = none
      rw [put_ne]
      · exact h.fresh x (List.mem_cons_of_mem _ hx)
      · rintro rfl
        exact hnot (hid ▸ hx)
  | acted hr hp hphase | reportedEvent hr hp | reportedEnd hr hp =>
    exact h.mono (fun _ => id) (put_some_isSome hr)
  | _ => exact h

/-! ## Coverage -/

namespace ManagerPc

/-- The task of a finish whose write has committed. -/
def finished : ManagerPc → Option TaskId
  | .write (.finish taskId _) (.replied (some (.transition _))) => some taskId
  | _ => none

/-- The row of a conflict that a cancel was told of. -/
def conflict : ManagerPc → Option Task
  | .write (.cancel ..) (.replied (some (.transition (.conflict task)))) => some task
  | _ => none

@[simp] theorem reply_cancelling (pc : ManagerPc) (reply : Option Reply) :
    (pc.reply reply).cancelling = pc.cancelling := by
  unfold ManagerPc.reply
  split
  · rename_i job
    cases job <;> rfl
  · rfl

theorem claimed_of_finished {pc : ManagerPc} {id : TaskId} (h : pc.finished = some id) :
    pc.claimed = none := by
  unfold ManagerPc.finished at h
  split at h
  · rfl
  · cases h

end ManagerPc

structure Covered (board : Board) (m : Manager) (frozen : Bool) : Prop where
  /-- a cancel that was let in before the freeze still finds the entries -/
  running : m.degraded = false → frozen = false ∨ m.pc.cancelling = true →
    ∀ id, board.status id = some .running → id ∈ m.active
  unclaimed : ∀ id, m.pc.claimed = some id → m.pc.claimReply = none →
    board.status id ≠ some .running
  finished : ∀ id, m.pc.finished = some id → board.status id ≠ some .running
  conflict : ∀ task, m.pc.conflict = some task →
    task.status ≠ .queued ∧ (task.status = .running → task.id ∈ m.active)

namespace Covered

variable {board board' : Board} {m m' : Manager} {frozen frozen' : Bool}

/-- At most points only the first fact says anything. -/
theorem plain (hrun : m'.degraded = false → frozen' = false ∨ m'.pc.cancelling = true →
      ∀ id, board.status id = some .running → id ∈ m'.active)
    (hc : m'.pc.claimed = none ∧ m'.pc.finished = none ∧ m'.pc.conflict = none) :
    Covered board m' frozen' := by
  refine ⟨hrun, fun id hid => ?_, fun id hid => ?_, fun task htask => ?_⟩
  · rw [hc.1] at hid; cases hid
  · rw [hc.2.1] at hid; cases hid
  · rw [hc.2.2] at htask; cases htask

/-- A turn that keeps the entries and begins no cancel. -/
theorem turn (h : Covered board m frozen) (ha : m'.active = m.active)
    (hd : m'.degraded = m.degraded) (hcan : m'.pc.cancelling = true → m.pc.cancelling = true)
    (hc : m'.pc.claimed = none ∧ m'.pc.finished = none ∧ m'.pc.conflict = none) :
    Covered board m' frozen := by
  refine plain (fun hdeg hf id hid => ?_) hc
  rw [ha]
  exact h.running (hd ▸ hdeg) (hf.imp_right hcan) id hid

/-- A turn that drops the entry of a task that is not running. -/
theorem drop (h : Covered board m frozen) {taskId : TaskId}
    (hid : board.status taskId ≠ some .running) (ha : m'.active = m.active.erase taskId)
    (hd : m'.degraded = m.degraded) (hcan : m'.pc.cancelling = false)
    (hc : m'.pc.claimed = none ∧ m'.pc.finished = none ∧ m'.pc.conflict = none) :
    Covered board m' frozen := by
  refine plain (fun hdeg hf id hrun => ?_) hc
  rw [ha]
  refine (List.mem_erase_of_ne ?_).2 (h.running (hd ▸ hdeg) (hf.imp_right ?_) id hrun)
  · rintro rfl
    exact hid hrun
  · rw [hcan]; nofun

/-- In the degraded mode, and after the freeze, a running task may have lost
its entry. -/
theorem dark (h : m'.degraded = true ∨ frozen' = true ∧ m'.pc.cancelling = false)
    (hc : m'.pc.claimed = none ∧ m'.pc.finished = none ∧ m'.pc.conflict = none) :
    Covered board m' frozen' := by
  refine plain (fun hdeg hf => ?_) hc
  rcases h with h | ⟨h, hcan⟩
  · rw [h] at hdeg; cases hdeg
  · rw [h, hcan] at hf
    simp at hf

end Covered

/-- Where `isFrozen` is set, the control is. -/
theorem control_frozen (hmode : Modes s.manager s.control) (h : s.isFrozen = true) :
    s.control.frozen = true := by
  simp only [Primary.isFrozen, Bool.or_eq_true] at h
  exact h.elim hmode.frozen id

/-- After a step that may write, a running task either ran before or is that of
the claim in progress. -/
theorem covered_running (hs : Step s l s') (hstore : ∃ log, Reflects s.db log)
    (hmode : Modes s.manager s.control) (hl : Linked s.writer s.manager.pc)
    (h : Covered s.db.board s.manager s.control.frozen) (hd : s.manager.degraded = false)
    (hf : s.control.frozen = false ∨ s.manager.pc.cancelling = true) (id : TaskId)
    (hid : s'.db.board.status id = some .running) : id ∈ s.manager.active := by
  by_cases hrun : s.db.board.status id = some .running
  · exact h.running hd hf id hrun
  · by_cases hc : s.manager.pc.claimed = some id
    · exact hmode.claimed id hc
    · exact absurd hid (step_not_running hs hstore hl hc hrun)

theorem covered_step (hs : Step s l s') (hstore : ∃ log, Reflects s.db log)
    (hmode : Modes s.manager s.control) (hl : Linked s.writer s.manager.pc)
    (hrec : Recovery s.coordinator s.manager.degraded s.mailbox s.db.board)
    (h : Covered s.db.board s.manager s.control.frozen) :
    Covered s'.db.board s'.manager s'.control.frozen := by
  have keep := covered_running hs hstore hmode hl h
  have dimmed : s.isFrozen = true → s.control.frozen = true := control_frozen hmode
  have unread : ∀ id, s.manager.pc.claimed ≠ some id → s.db.board.status id ≠ some .running →
      s'.db.board.status id ≠ some .running := fun id => step_not_running hs hstore hl
  cases hs with
  | wroteCoordinator hw hx | wroteHandler hw hx =>
    obtain ⟨-, hwrote⟩ := execute_wrote hstore hx
    rw [hw] at hl
    refine ⟨keep, fun id hid hr => ?_, fun id hid => ?_, h.conflict⟩
    · exact hwrote.not_running (h.unclaimed id hid hr) (hl.not_start_of_other (by simp))
    · refine unread id ?_ (h.finished id hid)
      rw [ManagerPc.claimed_of_finished hid]
      simp
  | wroteManager hw hx =>
    obtain ⟨-, hwrote⟩ := execute_wrote hstore hx
    rw [hw] at hl
    obtain ⟨job, hpc, rfl, -⟩ := hl.head
    refine ⟨fun hd hf => keep hd (by rwa [goto_pc, ManagerPc.reply_cancelling] at hf), ?_, ?_, ?_⟩
    all_goals rw [goto_pc, hpc]
    · intro id hid hr
      cases job with
      | claim task repository rest repositories =>
        cases hid
        have hsame := hwrote.unapplied fun t eventId he => by rw [he] at hr; cases hr
        rw [hsame]
        exact h.unclaimed task.id (by rw [hpc]; rfl) (by rw [hpc]; rfl)
      | cancel => cases hid
      | append => cases hid
      | finish => cases hid
      | quiesce => cases hid
    · intro id hid
      unfold ManagerPc.reply ManagerPc.finished at hid
      split at hid
      · rename_i heq
        cases hid
        simp only [ManagerPc.write.injEq, WriteStage.replied.injEq] at heq
        obtain ⟨rfl, hrep⟩ := heq
        rw [hrep] at hwrote
        exact hwrote.finished
      · cases hid
    · intro task htask
      unfold ManagerPc.reply ManagerPc.conflict at htask
      split at htask
      · rename_i heq
        cases htask
        simp only [ManagerPc.write.injEq, WriteStage.replied.injEq] at heq
        obtain ⟨rfl, hrep⟩ := heq
        rw [hrep] at hwrote
        obtain ⟨-, hid, hst, hne⟩ := hwrote.conflict
        refine ⟨hne, fun hrun => ?_⟩
        rw [hrun, ← hid] at hst
        have hd := (hmode.awake (by rw [hpc]; rfl)).1
        exact h.running hd (.inr (by rw [hpc]; rfl)) _ hst
      · cases htask
  | notified | ticked | turnEnded | scanStarted | cancelRejected | appendRejected | appendStarted
  | finishIgnored | finishStarted | finalizeRejected | quiesceRejected | scanStopped | scanned
  | claimSkipped | claimSpawned | cancelAnswered | appended | quiesced =>
    exact h.turn rfl rfl nofun ⟨rfl, rfl, rfl⟩
  | cancelStarted hpc hm hf hd =>
    exact .plain (fun hd _ => h.running hd (.inl (isFrozen_false hf).2)) ⟨rfl, rfl, rfl⟩
  | cancelQueued hpc => exact h.turn rfl rfl (fun _ => by rw [hpc]; rfl) ⟨rfl, rfl, rfl⟩
  | cancelAccepted ht =>
    exact h.turn rfl rfl (fun _ => answering_cancelling (cancelTarget_answering ht)) ⟨rfl, rfl, rfl⟩
  | finishDropped hpc hm hf =>
    exact .dark (hf.symm.imp_right fun hf => ⟨dimmed hf, rfl⟩) ⟨rfl, rfl, rfl⟩
  | claimDropped hpc hf => exact .dark (.inr ⟨dimmed hf, rfl⟩) ⟨rfl, rfl, rfl⟩
  | finished hpc => exact h.drop (h.finished _ (by rw [hpc]; rfl)) rfl rfl rfl ⟨rfl, rfl, rfl⟩
  | finishFailed hpc | appendFailed hpc => exact .dark (.inl rfl) ⟨rfl, rfl, rfl⟩
  | finalized hpc hm =>
    refine .plain (fun _ _ id hid => ?_) ⟨rfl, rfl, rfl⟩
    exact absurd hid (hrec.recovered _ (hrec.head hm).1 rfl id)
  | quiesceRefused | quiesceStarted => exact .dark (.inr ⟨rfl, rfl⟩) ⟨rfl, rfl, rfl⟩
  | @claimStarted senderOpen task rest repositories repository hpc hn hp hf =>
    have hrun := h.running (hmode.awake (by rw [hpc]; rfl)).1 (.inl (isFrozen_false hf).2)
    refine ⟨fun _ _ id hid => List.mem_cons_of_mem _ (hrun id hid), ?_, fun _ hid => ?_,
      fun _ htask => ?_⟩
    · rintro id ⟨⟩ - hid
      exact hn (hrun _ hid)
    · cases hid
    · cases htask
  | claimChecked hpc hst =>
    have hunclaimed := h.unclaimed
    rw [hpc] at hunclaimed
    refine ⟨fun hd hf => h.running hd (.inl (hf.resolve_right Bool.false_ne_true)), ?_,
      fun _ hid => (by cases hid), fun _ htask => (by cases htask)⟩
    rcases hst with ⟨rfl, rfl⟩ | ⟨rfl, rfl⟩ <;> exact hunclaimed
  | claimAborted hpc hst =>
    refine h.drop (h.unclaimed _ (by rw [hpc]; rfl) ?_) rfl rfl rfl ⟨rfl, rfl, rfl⟩
    rw [hpc]
    rcases hst with rfl | rfl <;> rfl
  | claimCommitted hpc =>
    exact ⟨fun hd hf => h.running hd (.inl (hf.resolve_right Bool.false_ne_true)),
      fun _ _ hr => (by cases hr), fun _ hid => (by cases hid), fun _ htask => (by cases htask)⟩
  | claimConflict hpc =>
    exact h.drop (h.unclaimed _ (by rw [hpc]; rfl) (by rw [hpc]; rfl)) rfl rfl rfl ⟨rfl, rfl, rfl⟩
  | @claimFailed task repository rest repositories reply hpc hne =>
    refine h.drop (h.unclaimed _ (by rw [hpc]; rfl) ?_) rfl rfl rfl ⟨rfl, rfl, rfl⟩
    rw [hpc]
    unfold ManagerPc.claimReply
    split
    · rename_i heq
      cases heq
      exact absurd rfl (hne _ _)
    · rename_i heq
      cases heq
    · rfl
  | @sent job hpc =>
    rw [hpc] at keep
    refine ⟨fun hd hf => ?_, fun id hid _ => ?_, fun _ hid => ?_, fun _ htask => ?_⟩
    · refine keep hd (hf.imp_right fun hcan => ?_)
      cases job <;> first | rfl | cases hcan
    · refine h.unclaimed id ?_ ?_
      · rw [hpc]
        cases job <;> exact hid
      · rw [hpc]
        cases job <;> rfl
    · cases job <;> cases hid
    · cases job <;> cases htask
  | frozen hpc =>
    refine ⟨fun hd hf => h.running hd (.inr ?_), h.unclaimed, h.finished, h.conflict⟩
    exact hf.resolve_left nofun
  | _ => exact h

/-! ## Replies to cancels -/

/-- No cancel was answered with one of the two invariant errors. -/
def Answers (cancelReplies : List (TaskId × CancelReply)) : Prop :=
  ∀ taskId, (taskId, missingToken) ∉ cancelReplies ∧ (taskId, queuedConflict) ∉ cancelReplies

theorem Answers.push {cancelReplies : List (TaskId × CancelReply)} (h : Answers cancelReplies)
    {taskId : TaskId} {reply : CancelReply} (hm : reply ≠ missingToken) (hq : reply ≠ queuedConflict) :
    Answers (cancelReplies ++ [(taskId, reply)]) := by
  intro id
  simp only [List.mem_append, List.mem_singleton, Prod.mk.injEq, not_or]
  exact ⟨⟨(h id).1, fun he => hm he.2.symm⟩, ⟨(h id).2, fun he => hq he.2.symm⟩⟩

/-- What a cancel has read or been told of is covered. -/
theorem target_covered {taskId : TaskId} {handler : Nat} {task : Task}
    (ht : s.CancelTarget taskId handler task) (hstore : ∃ log, Reflects s.db log)
    (hmode : Modes s.manager s.control) (h : Covered s.db.board s.manager s.control.frozen) :
    (task.status = .running → task.id ∈ s.manager.active) ∧
      (s.manager.pc ≠ .cancelRead taskId handler → task.status ≠ .queued) := by
  rcases ht with ⟨hpc, detail, db, hd, rfl⟩ | hpc
  · refine ⟨fun hrun => ?_, fun hne => absurd hpc hne⟩
    obtain ⟨log, hlog⟩ := hstore
    obtain ⟨hrow, hid⟩ := taskDetail_row hlog hd
    refine h.running (hmode.awake (by rw [hpc]; rfl)).1 (.inr (by rw [hpc]; rfl)) _ ?_
    rw [hid, board_reflects hlog, status_boardOf hrow, hrun]
  · obtain ⟨hq, hrun⟩ := h.conflict task (by rw [hpc]; rfl)
    exact ⟨hrun, fun _ => hq⟩

theorem answers_step (hs : Step s l s') (hstore : ∃ log, Reflects s.db log)
    (hmode : Modes s.manager s.control) (hcov : Covered s.db.board s.manager s.control.frozen)
    (h : Answers s.cancelReplies) : Answers s'.cancelReplies := by
  cases hs with
  | cancelRejected hpc hm he =>
    rcases he with rfl | rfl <;> exact h.push nofun nofun
  | cancelAnswered hc hmiss hq =>
    refine h.push (fun he => ?_) fun he => ?_
    · obtain ⟨task, ht, hrun, hn⟩ := hmiss he
      exact hn ((target_covered ht hstore hmode hcov).1 hrun)
    · obtain ⟨task, ht, hst, hpc⟩ := hq he
      exact (target_covered ht hstore hmode hcov).2 hpc hst
  | _ => exact h

/-! ## Together -/

structure Sound (concurrency : Nat) (s : Primary) : Prop where
  store : ∃ log, Reflects s.db log
  slots : Slots concurrency s.manager
  modes : Modes s.manager s.control
  linked : Linked s.writer s.manager.pc
  recovery : Recovery s.coordinator s.manager.degraded s.mailbox s.db.board
  scans : Scans s.db.board s.runners s.manager.pc
  covered : Covered s.db.board s.manager s.control.frozen
  answers : Answers s.cancelReplies

variable {concurrency : Nat}

theorem sound_start {db : Db} (h : Recovered db) : Sound concurrency (.start concurrency db) where
  store := h.reflects
  slots := ⟨Nat.add_zero _, List.nodup_nil⟩
  modes := ⟨id, fun _ => rfl, fun hq => (by cases hq), fun _ hc => (by cases hc)⟩
  linked := ⟨rfl, fun _ hc => absurd hc List.not_mem_nil, fun _ hc => absurd hc List.not_mem_nil⟩
  recovery := .stop rfl
  scans := ⟨fun _ hr => (by cases hr), fun _ hid => absurd hid List.not_mem_nil, List.nodup_nil,
    fun _ _ hc => (by cases hc)⟩
  covered := .plain (fun _ _ id hid => absurd hid (h.idle id)) ⟨rfl, rfl, rfl⟩
  answers _ := ⟨List.not_mem_nil, List.not_mem_nil⟩

theorem sound_step (hs : Step s l s') (h : Sound concurrency s) : Sound concurrency s' where
  store := (step_wrote hs h.store).1
  slots := slots_step hs h.slots
  modes := modes_step hs h.modes
  linked := linked_step hs h.linked
  recovery := recovery_step hs h.store h.modes h.linked h.recovery
  scans := scans_step hs h.store h.linked h.scans
  covered := covered_step hs h.store h.modes h.linked h.recovery h.covered
  answers := answers_step hs h.store h.modes h.covered h.answers

theorem inductive_sound {db : Db} (h : Recovered db) :
    (primary concurrency db).Inductive (Sound concurrency) where
  init _ hi := hi ▸ sound_start h
  step _ _ _ hs hstep := sound_step (step_of_next hstep) hs

/-! ## Any messages -/

/-- The primary in an environment that may post any message to the manager but
the coordinator's. -/
def crowdedNext (s : Primary) : Label ⊕ TaskManagerMessage → Option Primary
  | .inl l => next s l
  | .inr message =>
    if message.isFinalize then none else some { s with mailbox := s.mailbox ++ [message] }

def crowded (concurrency : Nat) (db : Db) : LTS Primary (Label ⊕ TaskManagerMessage) :=
  LTS.ofFn (fun s => s = Primary.start concurrency db) crowdedNext

theorem inductive_sound_crowded {db : Db} (h : Recovered db) :
    (crowded concurrency db).Inductive (Sound concurrency) where
  init _ hi := hi ▸ sound_start h
  step s l s' hs hstep := by
    cases l with
    | inl l => exact sound_step (step_of_next hstep) hs
    | inr message =>
      change (if message.isFinalize then none else some _) = some s' at hstep
      split at hstep
      · cases hstep
      · rename_i hf
        cases hstep
        exact { hs with recovery := hs.recovery.push (eq_false_of_ne_true hf) }

/-- **Coverage.** Over any messages, ticks, replies of the writer, degraded
recoveries and shutdown: unless the manager is degraded or frozen, every running
task has an entry in `active`; every entry holds a permit, and is its task's
only one; and no cancel is answered with the missing-token error. -/
theorem manager_covers {db : Db} (h : Recovered db) (hr : (crowded concurrency db).Reachable s) :
    (s.manager.degraded = false → s.isFrozen = false →
      ∀ row ∈ s.db.tasks, row.status = .running → row.id ∈ s.manager.active) ∧
    (∀ taskId, (taskId, missingToken) ∉ s.cancelReplies) ∧ s.manager.active.Nodup ∧
    s.manager.active.length ≤ concurrency ∧
    s.manager.permits + s.manager.active.length = concurrency := by
  have hs := (inductive_sound_crowded h).reachable s hr
  have htotal := hs.slots.total
  refine ⟨fun hd hf row hrow hrun => ?_, fun id => (hs.answers id).1, hs.slots.nodup, by omega,
    htotal⟩
  obtain ⟨log, hlog⟩ := hs.store
  refine hs.covered.running hd (.inl (isFrozen_false hf).2) row.id ?_
  rw [board_row hlog hrow, hrun]

/-! ## A run -/

def sampleRepository : RepositoryRow :=
  { id := ⟨1⟩, selectedPath := CanonicalPath.root.toText, displayName := "r",
    gitRoot := CanonicalPath.root.toText, cargoWorkspaceRoot := CanonicalPath.root.toText,
    gitIdentityKey := "/", cargoIdentityKey := "/", createdAt := .epoch, lastOpenedAt := .epoch }

def sampleDb : Db := .migrated [sampleRepository]

theorem recovered_sampleDb : Recovered sampleDb := ⟨⟨[], reflects_migrated _⟩, fun _ => nofun⟩

def sampleTask : TaskId := ⟨7⟩

def sampleWrite : Label := .write ⟨0, sampleTask, ⟨8⟩, fun _ => 0⟩ ⟨1⟩ false

/-- A task is created and claimed. -/
def sampleClaim : List Label :=
  [.enter (.createTask ⟨⟨3⟩, ⟨1⟩, "p"⟩), .handler 0, sampleWrite, .handler 0, .receive (.ok .epoch),
   .endTurn, .read true, .claim true, .claim true, .claim true, .send, sampleWrite, .resume, .resume,
   .claim true, .handler 0]

theorem manager_covers_sample : ∃ s, (crowded 4 sampleDb).Reachable s ∧
    s.db.tasks.map (fun row => (row.id, row.status)) = [(sampleTask, .running)] ∧
    s.manager.active = [sampleTask] ∧ s.manager.permits + s.manager.active.length = 4 := by
  have hrun : (LTS.exec crowdedNext (.start 4 sampleDb) (sampleClaim.map .inl)).map (fun s =>
      (s.db.tasks.map (fun row => (row.id, row.status)), s.manager.active)) =
        some ([(sampleTask, .running)], [sampleTask]) := by decide +kernel
  obtain ⟨s, hs, heq⟩ := Option.map_eq_some_iff.1 hrun
  obtain ⟨htasks, hactive⟩ := Prod.mk.inj heq
  have hr : (crowded 4 sampleDb).Reachable s := LTS.reachable_of_exec rfl hs
  exact ⟨s, hr, htasks, hactive, (manager_covers recovered_sampleDb hr).2.2.2.2⟩

end CodingAgent.L4.App
