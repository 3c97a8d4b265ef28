import CodingAgent.L4App.Attribution
import CodingAgent.L4App.CleanShutdown

/-!
# A quit while runners emit events (`coding-agent-app/src/{server,task_manager}.rs`)

`begin_quiescing` sets the service to `Quiescing` when the gate closes; the
manager is frozen only when it receives the barrier's message. An event that the
manager receives in between is refused with `StoreDegraded`, because the service
is not `Ready`. `run_success` then returns `Failed`, and since the manager is
not frozen that result is persisted: the quit has made the task fail
(`quit_race`). The other two refusals of `append_runner_event` come after the
freeze, where results are dropped and the barrier interrupts the task.

Runs are `calm` if every write of the manager gets its reply, nobody cancels and
every runner is `run_success`; they are `punctual` if in addition the manager
receives no event in that window. Then a task that runs when the gate closes is
completed or interrupted by a clean shutdown (`quit_interrupts`).

* `Undisturbed`, `Unbroken`: no cancel and no degraded mode.
* `Live`: until the freeze a runner that is not done has its entry, and its row
  is running.
* `Sincere`: a runner sees a rejected append, and returns `Failed`, only after
  the freeze.
-/
namespace CodingAgent.L4.App
open CodingAgent.L1.Domain CodingAgent.L2.Store

variable {s s' : Primary} {l : Label}

/-- No store write fails, no runner panics and nobody cancels; the runners are
`run_success`. -/
def calm (s : Primary) : Label → Bool
  | .enter (.cancelTask _) => false
  | .write env repositoryId fails =>
    !fails && match s.writer with
      | ⟨operation, .manager⟩ :: _ => (operation.execute env repositoryId fails s.db).1.isSome
      | _ => true
  | .runner taskId action =>
    match s.runners taskId with
    | some r => action = runSuccess r.task (r.results.map (·.2)) (s.isCancelled taskId)
    | none => false
  | .stray _ _ => false
  | _ => true

/-- The manager receives no event while the service is not ready, unless it is
frozen or degraded itself. -/
def punctual (s : Primary) : Label → Bool
  | .receive _ =>
    match s.mailbox with
    | .runnerEvent _ _ _ :: _ => s.service.state = .ready || s.isFrozen || s.manager.degraded
    | _ => true
  | _ => true

theorem awaiting_of_calm (h : calm s l = true) : awaiting s l = true := by
  unfold awaiting
  split
  · cases h
  · rename_i taskId
    simp only [calm] at h
    split at h
    · exact runSuccess_cancelled (of_decide_eq_true h).symm
    · cases h
  · rfl

/-! ## No cancel -/

/-- Nobody has asked for a cancel. -/
structure Undisturbed (handlers : List HandlerPc) (mailbox : List TaskManagerMessage)
    (pc : ManagerPc) (accepted : List TaskId) : Prop where
  handlers : ∀ id, .entered (.cancelTask id) ∉ handlers
  mailbox : ∀ id h, .cancel id h ∉ mailbox
  pc : pc.cancelling = false
  accepted : accepted = []

namespace Undisturbed

variable {handlers handlers' : List HandlerPc} {mailbox mailbox' : List TaskManagerMessage}
  {pc pc' : ManagerPc} {accepted : List TaskId}

theorem turn (h : Undisturbed handlers mailbox pc accepted) (hpc : pc'.cancelling = false) :
    Undisturbed handlers mailbox pc' accepted :=
  { h with pc := hpc }

theorem moved (h : Undisturbed handlers mailbox pc accepted)
    (hh : ∀ id, .entered (.cancelTask id) ∈ handlers' → .entered (.cancelTask id) ∈ handlers) :
    Undisturbed handlers' mailbox pc accepted :=
  { h with handlers := fun id hid => h.handlers id (hh id hid) }

theorem push (h : Undisturbed handlers mailbox pc accepted) {message : TaskManagerMessage}
    (hm : ∀ id h, message ≠ .cancel id h) :
    Undisturbed handlers (mailbox ++ [message]) pc accepted := by
  refine { h with mailbox := fun id n hmem => ?_ }
  rcases List.mem_append.1 hmem with hmem | hmem
  · exact h.mailbox id n hmem
  · exact hm id n (List.mem_singleton.1 hmem).symm

theorem pop (h : Undisturbed handlers mailbox' pc accepted) {message : TaskManagerMessage}
    (hm : mailbox' = message :: mailbox) : Undisturbed handlers mailbox pc accepted :=
  { h with mailbox := fun id n hmem => h.mailbox id n (hm ▸ List.mem_cons_of_mem _ hmem) }

end Undisturbed

theorem mem_set_entered {handlers : List HandlerPc} {h : Nat} {pc : HandlerPc} {request : Request}
    (hne : pc ≠ .entered request) (hmem : .entered request ∈ handlers.set h pc) :
    .entered request ∈ handlers := by
  rcases List.mem_or_eq_of_mem_set hmem with hmem | heq
  · exact hmem
  · exact absurd heq.symm hne

theorem mem_modify_entered {handlers : List HandlerPc} {h : Nat} {f : HandlerPc → HandlerPc}
    {request : Request} (hf : ∀ pc, f pc = .entered request → pc = .entered request)
    (hmem : .entered request ∈ handlers.modify h f) : .entered request ∈ handlers := by
  obtain ⟨i, hi⟩ := List.mem_iff_getElem?.1 hmem
  rw [List.getElem?_modify] at hi
  obtain ⟨pc, hpc, heq⟩ := Option.map_eq_some_iff.1 hi
  have hmem := List.mem_of_getElem? hpc
  split at heq
  · exact hf pc heq ▸ hmem
  · exact heq ▸ hmem

theorem reply_entered {outcome : Option StoreWriterOperationOutcome} {request : Request}
    (pc : HandlerPc) (h : pc.reply outcome = .entered request) : pc = .entered request := by
  unfold HandlerPc.reply at h
  split at h
  · split at h <;> cases h
  · exact h

theorem answer_entered {handlers : List HandlerPc} {h : Nat} {request : Request}
    (hmem : .entered request ∈ answer handlers h) : .entered request ∈ handlers := by
  refine mem_modify_entered (fun pc hpc => ?_) hmem
  split at hpc
  · cases hpc
  · exact hpc

theorem undisturbed_step (hs : Step s l s') (hok : calm s l = true)
    (h : Undisturbed s.handlers s.mailbox s.manager.pc s.accepted) :
    Undisturbed s'.handlers s'.mailbox s'.manager.pc s'.accepted := by
  cases hs with
  | @enter request hg hready =>
    refine { h with handlers := fun id hmem => ?_ }
    rcases List.mem_append.1 hmem with hmem | hmem
    · exact h.handlers id hmem
    · cases List.mem_singleton.1 hmem
      cases hok
  | submit hpc hlive hop => exact h.moved fun _ => mem_set_entered (by nofun)
  | @post n pc message hpc hlive hpost =>
    refine (h.moved fun _ => mem_set_entered (by nofun)).push ?_
    unfold HandlerPc.Posts at hpost
    split at hpost
    · exact absurd (List.mem_of_getElem? hpc) (h.handlers _)
    · subst hpost; nofun
    · cases hpost
  | leave hpc hlive hpc' =>
    exact h.moved fun _ => mem_set_entered (by rcases hpc' with rfl | rfl <;> nofun)
  | wroteManager hw hx => exact h.turn ((ManagerPc.reply_cancelling _ _).trans h.pc)
  | wroteHandler hw hx => exact h.moved fun _ => mem_modify_entered reply_entered
  | notified hpc hm => exact ((h.pop hm).turn rfl).moved fun _ => answer_entered
  | cancelRejected hpc hm | cancelStarted hpc hm =>
    exact absurd (by rw [hm]; exact List.mem_cons_self) (h.mailbox _ _)
  | appendRejected hpc hm | appendStarted hpc hm | finishIgnored hpc hm | finishDropped hpc hm
  | finishStarted hpc hm | finalizeRejected hpc hm | finalized hpc hm | quiesceRejected hpc hm
  | quiesceRefused hpc hm | quiesceStarted hpc hm => exact (h.pop hm).turn rfl
  | ticked | turnEnded | scanStarted | scanStopped | scanned | claimSkipped | claimStarted
  | claimChecked | claimAborted | claimDropped | claimCommitted | claimSpawned | claimConflict
  | claimFailed | appended | appendFailed | finished | finishFailed | quiesced =>
    exact h.turn rfl
  | cancelAnswered hc =>
    have hp := h.pc
    rw [answering_cancelling hc] at hp
    cases hp
  | cancelQueued hpc =>
    have hp := h.pc
    rw [hpc] at hp
    cases hp
  | cancelAccepted ht =>
    have hp := h.pc
    rw [answering_cancelling (cancelTarget_answering ht)] at hp
    cases hp
  | @sent job hpc =>
    refine h.turn ?_
    have hp := h.pc
    rw [hpc] at hp
    cases job <;> exact hp
  | reportedEvent | reportedEnd | strayed | finalizeSent | quiesceSent => exact h.push nofun
  | _ => exact h

/-! ## No degraded mode -/

/-- The reply a write is given when it does not fail. -/
def ManagerWrite.Answers : ManagerWrite → Option Reply → Prop
  | .append .., reply => ∃ outcome, reply = some (.append outcome)
  | .finish .., reply => ∃ outcome, reply = some (.transition outcome)
  | _, _ => True

def ManagerPc.replied : ManagerPc → Bool
  | .write _ (.replied _) => true
  | _ => false

structure Unbroken (degraded : Bool) (writer : List WriteCommand) (pc : ManagerPc) : Prop where
  degraded : degraded = false
  writer : ∀ c ∈ writer, c.origin ≠ .coordinator
  reply : ∀ job reply, pc = .write job (.replied reply) → job.Answers reply

namespace Unbroken

variable {degraded : Bool} {writer : List WriteCommand} {pc pc' : ManagerPc}

theorem turn (h : Unbroken degraded writer pc) (hpc : pc'.replied = false) :
    Unbroken degraded writer pc' := by
  refine { h with reply := fun job reply heq => ?_ }
  rw [heq] at hpc
  cases hpc

theorem push (h : Unbroken degraded writer pc) {command : WriteCommand}
    (ho : command.origin ≠ .coordinator) : Unbroken degraded (writer ++ [command]) pc := by
  refine { h with writer := fun c hc => ?_ }
  rcases List.mem_append.1 hc with hc | hc
  · exact h.writer c hc
  · exact (List.mem_singleton.1 hc) ▸ ho

theorem tail {command : WriteCommand} (h : Unbroken degraded (command :: writer) pc) :
    Unbroken degraded writer pc :=
  { h with writer := fun c hc => h.writer c (List.mem_cons_of_mem _ hc) }

end Unbroken

theorem execute_task {env : Env} {repositoryId : RepositoryId} {fails : Bool} {db db' : Db}
    {operation : Operation} {outcome : Option StoreWriterOperationOutcome}
    (hx : (StoreWriterOperation.task operation).execute env repositoryId fails db = (outcome, db'))
    (hsome : outcome.isSome) : ∃ reply, outcome = some (.task reply) := by
  simp only [StoreWriterOperation.execute] at hx
  split at hx
  · cases hx
    exact ⟨_, rfl⟩
  · cases hx
    cases hsome

theorem Wrote.answers {b b' : Board} {job : ManagerWrite} {reply : Reply}
    (h : Wrote b (.task job.operation) (some reply) b') : job.Answers (some reply) := by
  cases job with
  | append taskId event awaited =>
    cases h with
    | done he => cases he <;> exact ⟨_, rfl⟩
  | finish taskId outcome =>
    cases h with
    | done he => cases he <;> exact ⟨_, rfl⟩
  | claim | cancel | quiesce => trivial

theorem unbroken_step (hs : Step s l s') (hok : calm s l = true) (hstore : ∃ log, Reflects s.db log)
    (hl : Linked s.writer s.manager.pc)
    (hrec : Recovery s.coordinator s.manager.degraded s.mailbox s.db.board)
    (h : Unbroken s.manager.degraded s.writer s.manager.pc) :
    Unbroken s'.manager.degraded s'.writer s'.manager.pc := by
  cases hs with
  | submit => exact h.push nofun
  | wroteManager hw hx =>
    obtain ⟨-, hwrote⟩ := execute_wrote hstore hx
    rw [hw] at hl h
    obtain ⟨job, hpc, rfl, -⟩ := hl.head
    simp only [calm, hw, hx, Bool.and_eq_true] at hok
    obtain ⟨reply, rfl⟩ := execute_task hx hok.2
    refine { h.tail with reply := fun job' reply' heq => ?_ }
    rw [goto_pc, hpc] at heq
    cases heq
    exact hwrote.answers
  | wroteCoordinator hw =>
    exact absurd rfl (h.writer _ (by rw [hw]; exact List.mem_cons_self))
  | wroteHandler hw =>
    rw [hw] at h
    exact h.tail
  | notified | ticked | turnEnded | scanStarted | cancelRejected | cancelStarted | appendRejected
  | appendStarted | finishIgnored | finishDropped | finishStarted | finalizeRejected
  | quiesceRejected | quiesceRefused | quiesceStarted | scanStopped | scanned | claimSkipped
  | claimStarted | claimAborted | claimDropped | claimCommitted | claimSpawned | claimConflict
  | claimFailed | cancelAnswered | cancelQueued | cancelAccepted | appended | finished | quiesced =>
    exact h.turn rfl
  | claimChecked hpc hst => rcases hst with ⟨rfl, rfl⟩ | ⟨rfl, rfl⟩ <;> exact h.turn rfl
  | finalized hpc hm hf hd =>
    rw [h.degraded] at hd
    cases hd
  | sent => exact (h.turn rfl).push nofun
  | appendFailed hpc hne =>
    obtain ⟨outcome, rfl⟩ := h.reply _ _ hpc
    exact absurd rfl (hne outcome)
  | finishFailed hpc hne =>
    obtain ⟨outcome, rfl⟩ := h.reply _ _ hpc
    exact absurd rfl (hne outcome)
  | recoverySent hc =>
    have hd := hrec.degraded _ hc
    rw [h.degraded] at hd
    cases hd
  | _ => exact h

/-! ## Running rows and their runners -/

/-- What may end a running row when nobody cancels and nothing is degraded. -/
theorem step_running (hs : Step s l s') (hstore : ∃ log, Reflects s.db log)
    (hl : Linked s.writer s.manager.pc)
    (hu : Undisturbed s.handlers s.mailbox s.manager.pc s.accepted)
    (hb : Unbroken s.manager.degraded s.writer s.manager.pc) {id : TaskId}
    (hid : s.db.board.status id = some .running) :
    s'.db.board.status id = some .running ∨
      (∃ outcome, s.manager.pc = .write (.finish id outcome) .waiting) ∨
      ∃ now, s.manager.pc = .write (.quiesce now) .waiting := by
  rcases step_verdict hs hstore hl id with heq | ⟨v, hv, hc⟩
  · left
    rw [Board.status, heq]
    exact hid
  · cases hc with
    | created hn =>
      rw [Board.status, hn] at hid
      cases hid
    | claimed =>
      left
      rw [Board.status, hv]
      rfl
    | cancelled hpc =>
      have hp := hu.pc
      rw [hpc] at hp
      cases hp
    | finished hpc => exact .inr (.inl ⟨_, hpc⟩)
    | @recovered now failure origin writer hw =>
      rw [hw] at hl
      cases origin with
      | manager =>
        obtain ⟨job, hpc, hop, -⟩ := hl.head
        cases job with
        | quiesce now => exact .inr (.inr ⟨now, hpc⟩)
        | claim | cancel | append | finish => cases hop
      | coordinator => exact absurd rfl (hb.writer _ (by rw [hw]; exact List.mem_cons_self))
      | handler n => exact (hl.handler _ List.mem_cons_self n rfl).elim

/-- A reported end stays reported. -/
theorem step_returned (hs : Step s l s') (hscan : Scans s.db.board s.runners s.manager.pc)
    (hchan : Channels s.mailbox s.manager.pc s.runners) {id : TaskId} {result : JoinResult}
    (hret : Returned s.runners id result) : Returned s'.runners id result := by
  obtain ⟨r, hr, hp⟩ := hret
  have other : ∀ {x : TaskId} {r' : Runner} {r? : Option Runner}, s.runners x = some r' →
      (∀ result, r'.phase ≠ .reported result) → Returned (put s.runners x r?) id result := by
    intro x r' r? hx hnot
    refine ⟨r, ?_, hp⟩
    rw [put_ne]
    · exact hr
    · rintro rfl
      rw [hr] at hx
      cases hx
      exact hnot result hp
  have waiting : ∀ {x : TaskId} {event : RunnerEvent} {awaited : Bool} {append : AppendResult},
      (awaited = true ∧ ∃ r, s.runners x = some r ∧ r.phase = .waiting event) →
      Returned (s.replyAppend x event awaited append).runners id result := by
    rintro x event awaited append ⟨rfl, r', hr', hp'⟩
    exact other hr' (by rw [hp']; nofun)
  cases hs with
  | appendRejected hpc hm =>
    rw [hpc] at hchan
    exact waiting (hchan.rejecting hm)
  | appended hpc | appendFailed hpc =>
    rw [hpc] at hchan
    exact waiting hchan.answering
  | @claimSpawned task current repository rest repositories hpc =>
    rw [hpc] at hscan
    obtain ⟨hid, -⟩ := hscan.claim task current rfl
    refine ⟨r, ?_, hp⟩
    show put s.runners current.id _ id = _
    rw [put_ne]
    · exact hr
    · rintro rfl
      rw [hid, hscan.fresh _ List.mem_cons_self] at hr
      cases hr
  | acted hr' hp' | reportedEvent hr' hp' | reportedEnd hr' hp' =>
    exact other hr' (by rw [hp']; nofun)
  | _ => exact ⟨r, hr, hp⟩

/-- Until the freeze a runner that is not done has its entry and a running row. -/
structure Live (board : Board) (active : List TaskId) (frozen : Bool) (pc : ManagerPc)
    (runners : TaskId → Option Runner) : Prop where
  live : ∀ id, (runners id).isSome → (∀ result, ¬ Returned runners id result) →
    frozen = true ∨ id ∈ active ∧ board.status id = some .running
  claim : ∀ task current, pc.claimReply = some (task, current) →
    frozen = true ∨ board.status task.id = some .running

namespace Live

variable {board : Board} {active active' : List TaskId} {frozen : Bool} {pc pc' : ManagerPc}
  {runners : TaskId → Option Runner}

theorem dark (h : frozen = true) : Live board active frozen pc runners :=
  ⟨fun _ _ _ => .inl h, fun _ _ _ => .inl h⟩

theorem turn (h : Live board active frozen pc runners)
    (ha : ∀ id, (runners id).isSome → (∀ result, ¬ Returned runners id result) → id ∈ active →
      id ∈ active') (hpc : pc'.claimReply = none) : Live board active' frozen pc' runners := by
  refine ⟨fun id hid hnot => ?_, fun task current hc => ?_⟩
  · exact (h.live id hid hnot).imp_right (And.imp_left (ha id hid hnot))
  · rw [hpc] at hc
    cases hc

/-- A runner that was not done goes on. -/
theorem runner (h : Live board active frozen pc runners) {id : TaskId} {r r' : Runner}
    (hr : runners id = some r) (hp : ∀ result, r.phase ≠ .reported result) :
    Live board active frozen pc (put runners id (some r')) := by
  refine ⟨fun x hx hnot => ?_, h.claim⟩
  by_cases hne : x = id
  · subst hne
    exact h.live x (by rw [hr]; rfl) (Channels.not_returned hr hp)
  · rw [put_ne hne] at hx
    refine h.live x hx fun result hret => hnot result ?_
    rwa [Returned, put_ne hne]

theorem answer (h : Live board active frozen pc runners) {taskId : TaskId} {event : RunnerEvent}
    {awaited : Bool} {result : AppendResult}
    (hw : awaited = true ∧ ∃ r, runners taskId = some r ∧ r.phase = .waiting event) :
    Live board active frozen .turnEnd (if awaited then put runners taskId
      ((runners taskId).map fun r =>
        { r with phase := .running, results := r.results ++ [(event, result)] }) else runners) := by
  obtain ⟨rfl, r, hr, hp⟩ := hw
  rw [if_pos rfl, hr]
  exact (h.turn (fun _ _ _ => id) rfl).runner hr (by rw [hp]; nofun)

end Live

theorem live_step (hs : Step s l s') (hstore : ∃ log, Reflects s.db log)
    (hmode : Modes s.manager s.control) (hl : Linked s.writer s.manager.pc)
    (hscan : Scans s.db.board s.runners s.manager.pc)
    (hchan : Channels s.mailbox s.manager.pc s.runners)
    (hu : Undisturbed s.handlers s.mailbox s.manager.pc s.accepted)
    (hb : Unbroken s.manager.degraded s.writer s.manager.pc)
    (h : Live s.db.board s.manager.active s.control.frozen s.manager.pc s.runners) :
    Live s'.db.board s'.manager.active s'.control.frozen s'.manager.pc s'.runners := by
  have hfreeze : s.isFrozen = true → s.control.frozen = true := control_frozen hmode
  have hbarrier : ∀ {now stage}, s.manager.pc = .write (.quiesce now) stage →
      s.control.frozen = true :=
    fun hpc => hmode.frozen (hmode.quiescing (by rw [hpc]; rfl))
  have keep : ∀ id, (s.runners id).isSome → (∀ result, ¬ Returned s.runners id result) →
      s.control.frozen = true ∨ id ∈ s.manager.active ∧ s'.db.board.status id = some .running := by
    intro id hid hnot
    rcases h.live id hid hnot with hf | ⟨ha, hrun⟩
    · exact .inl hf
    · rcases step_running hs hstore hl hu hb hrun with hrun | ⟨outcome, hpc⟩ | ⟨now, hpc⟩
      · exact .inr ⟨ha, hrun⟩
      · obtain ⟨result, hret, -⟩ := hchan.finished id outcome (.inr (by rw [hpc]; rfl))
        exact absurd hret (hnot result)
      · exact .inl (hbarrier hpc)
  have keepClaim : ∀ task current, s.manager.pc.claimReply = some (task, current) →
      s.control.frozen = true ∨ s'.db.board.status task.id = some .running := by
    refine fun task current hc => (h.claim task current hc).imp_right fun hrun => ?_
    rcases step_running hs hstore hl hu hb hrun with hrun | ⟨outcome, hpc⟩ | ⟨now, hpc⟩
    · exact hrun
    · rw [hpc] at hc; cases hc
    · rw [hpc] at hc; cases hc
  cases hs with
  | wroteManager hw hx =>
    obtain ⟨-, hwrote⟩ := execute_wrote hstore hx
    rw [hw] at hl
    obtain ⟨job, hpc, rfl, -⟩ := hl.head
    refine ⟨keep, fun task current hc => ?_⟩
    rw [goto_pc, hpc] at hc
    obtain ⟨_, _, _, eventId, rfl, hrep⟩ := ManagerPc.reply_claimReply hc
    rw [hrep] at hwrote
    obtain ⟨-, -, -, hset⟩ := hwrote.applied
    right
    rw [hset, Board.set_status, if_pos rfl]
    rfl
  | wroteCoordinator hw =>
    exact absurd rfl (hb.writer _ (by rw [hw]; exact List.mem_cons_self))
  | wroteHandler => exact ⟨keep, keepClaim⟩
  | notified | ticked | turnEnded | scanStarted | cancelRejected | cancelStarted | appendStarted
  | finishIgnored | finishStarted | finalizeRejected | finalized | quiesceRejected | scanStopped
  | scanned | claimSkipped | cancelAnswered | cancelQueued | cancelAccepted | quiesced =>
    exact h.turn (fun _ _ _ => id) rfl
  | claimStarted => exact h.turn (fun _ _ _ => List.mem_cons_of_mem _) rfl
  | @sent job hpc => exact h.turn (fun _ _ _ => id) (by cases job <;> rfl)
  | quiesceRefused | quiesceStarted | frozen => exact .dark rfl
  | finishDropped hpc hm hf =>
    refine .dark (hfreeze (hf.resolve_right ?_))
    rw [hb.degraded]
    nofun
  | claimDropped hpc hf => exact .dark (hfreeze hf)
  | claimChecked hpc hst =>
    rcases hst with ⟨rfl, rfl⟩ | ⟨rfl, rfl⟩ <;> exact h.turn (fun _ _ _ => id) rfl
  | claimCommitted hpc =>
    rw [hpc] at h
    exact ⟨h.live, h.claim⟩
  | claimAborted hpc | claimConflict hpc | claimFailed hpc =>
    -- the task of a claim has no runner yet
    refine h.turn (fun id hid _ ha => (List.mem_erase_of_ne ?_).2 ha) rfl
    rintro rfl
    rw [hscan.fresh _ (by rw [hpc]; exact List.mem_cons_self)] at hid
    cases hid
  | @finished taskId outcome reply hpc =>
    refine h.turn (fun id hid hnot ha => (List.mem_erase_of_ne ?_).2 ha) rfl
    rintro rfl
    obtain ⟨result, hret, -⟩ := hchan.finished id outcome (.inr (by rw [hpc]; rfl))
    exact hnot result hret
  | finishFailed hpc hne =>
    obtain ⟨outcome, rfl⟩ := hb.reply _ _ hpc
    exact absurd rfl (hne outcome)
  | appendRejected hpc hm =>
    rw [hpc] at hchan
    exact h.answer (hchan.rejecting hm)
  | appended hpc | appendFailed hpc =>
    rw [hpc] at hchan
    exact h.answer hchan.answering
  | @claimSpawned task current repository rest repositories hpc =>
    obtain ⟨hid, -⟩ := hscan.claim task current (by rw [hpc]; rfl)
    have hclaim := h.claim task current (by rw [hpc]; rfl)
    refine ⟨fun x hx hnot => ?_, fun _ _ hc => by cases hc⟩
    by_cases hne : x = current.id
    · rw [hne, hid]
      exact hclaim.imp_right fun hrun => ⟨hmode.claimed _ (by rw [hpc]; rfl), hrun⟩
    · change (put s.runners current.id _ x).isSome at hx
      rw [put_ne hne] at hx
      refine h.live x hx fun result ⟨r, hr, hp⟩ => hnot result ⟨r, ?_, hp⟩
      exact (put_ne hne _).trans hr
  | acted hr hp | reportedEvent hr hp => exact h.runner hr (by rw [hp]; nofun)
  | reportedEnd hr hp => exact h.runner hr (by rw [hp]; nofun)
  | _ => exact h

/-! ## Failed results -/

/-- The manager has been told that the task of an append is not running. -/
def ManagerPc.refused : ManagerPc → Bool
  | .write (.append ..) (.replied (some (.append (.notRunning _)))) => true
  | _ => false

/-- Before the freeze nothing is rejected, so nothing fails. -/
structure Sincere (frozen : Bool) (pc : ManagerPc) (runners : TaskId → Option Runner) : Prop where
  rejected : ∀ id r event error, runners id = some r → (event, .error error) ∈ r.results →
    frozen = true
  failed : ∀ id r failure, runners id = some r →
    r.phase.result = some (.returned (.failed failure)) → frozen = true
  steady : ∀ id r, runners id = some r → r.phase.result ≠ some .panicked
  refused : pc.refused = true → frozen = true
  finishing : ∀ id failure, pc.finishing ≠ some (id, .failed failure)

namespace Sincere

variable {frozen : Bool} {pc pc' : ManagerPc} {runners : TaskId → Option Runner}

theorem turn (h : Sincere frozen pc runners) (hpc : pc'.refused = false)
    (hf : pc'.finishing = none) : Sincere frozen pc' runners := by
  refine { h with refused := fun hr => ?_, finishing := fun id failure hfin => ?_ }
  · rw [hpc] at hr; cases hr
  · rw [hf] at hfin; cases hfin

theorem freeze (h : Sincere frozen pc runners) (hf : pc'.finishing = none ∨ pc' = pc) :
    Sincere true pc' runners := by
  refine ⟨fun _ _ _ _ _ _ => rfl, fun _ _ _ _ _ => rfl, h.steady, fun _ => rfl,
    fun id failure hfin => ?_⟩
  rcases hf with hf | rfl
  · rw [hf] at hfin; cases hfin
  · exact h.finishing id failure hfin

/-- Another runner, that meets the three facts about runners. -/
theorem runner (h : Sincere frozen pc runners) {id : TaskId} {r : Runner}
    (hrej : ∀ event error, (event, .error error) ∈ r.results → frozen = true)
    (hfail : ∀ failure, r.phase.result = some (.returned (.failed failure)) → frozen = true)
    (hpanic : r.phase.result ≠ some .panicked) :
    Sincere frozen pc (put runners id (some r)) := by
  have lift : ∀ {p : Runner → Prop}, p r → (∀ x r', runners x = some r' → p r') →
      ∀ x r', put runners id (some r) x = some r' → p r' := by
    intro p hp hold x r' hr'
    by_cases hx : x = id
    · rw [hx, put_self] at hr'
      cases hr'
      exact hp
    · rw [put_ne hx] at hr'
      exact hold x r' hr'
  refine { h with
    rejected := fun x r' event error hr' => ?_
    failed := fun x r' failure hr' => ?_
    steady := fun x r' hr' => ?_ }
  · exact lift (p := fun r => (event, .error error) ∈ r.results → frozen = true)
      (hrej event error) (fun x r' hr' => h.rejected x r' event error hr') x r' hr'
  · exact lift (p := fun r => r.phase.result = some (.returned (.failed failure)) → frozen = true)
      (hfail failure) (fun x r' hr' => h.failed x r' failure hr') x r' hr'
  · exact lift (p := fun r => r.phase.result ≠ some .panicked) hpanic h.steady x r' hr'

/-- The manager answers an append; with an error only after the freeze. -/
theorem answer (h : Sincere frozen pc runners) {taskId : TaskId} {event : RunnerEvent}
    {awaited : Bool} {result : AppendResult} (he : ∀ error, result = .error error → frozen = true)
    (hw : awaited = true ∧ ∃ r, runners taskId = some r ∧ r.phase = .waiting event) :
    Sincere frozen .turnEnd (if awaited then put runners taskId ((runners taskId).map fun r =>
      { r with phase := .running, results := r.results ++ [(event, result)] }) else runners) := by
  obtain ⟨rfl, r, hr, -⟩ := hw
  rw [if_pos rfl, hr]
  refine (h.turn rfl rfl).runner (fun e error hmem => ?_) (fun _ => nofun) nofun
  rcases List.mem_append.1 hmem with hmem | hmem
  · exact h.rejected taskId r e error hr hmem
  · cases List.mem_singleton.1 hmem
    exact he error rfl

end Sincere

theorem sincere_step (hs : Step s l s') (hcalm : calm s l = true) (hpunctual : punctual s l = true)
    (hstore : ∃ log, Reflects s.db log) (hmode : Modes s.manager s.control)
    (hl : Linked s.writer s.manager.pc) (hchan : Channels s.mailbox s.manager.pc s.runners)
    (hb : Unbroken s.manager.degraded s.writer s.manager.pc)
    (hlive : Live s.db.board s.manager.active s.control.frozen s.manager.pc s.runners)
    (h : Sincere s.control.frozen s.manager.pc s.runners) :
    Sincere s'.control.frozen s'.manager.pc s'.runners := by
  have hfreeze : s.isFrozen = true → s.control.frozen = true := control_frozen hmode
  -- a runner that waits for an append has its entry and a running row
  have waiting : ∀ {id event}, (∃ r, s.runners id = some r ∧ r.phase = .waiting event) →
      s.control.frozen = true ∨ id ∈ s.manager.active ∧ s.db.board.status id = some .running := by
    rintro id event ⟨r, hr, hp⟩
    exact hlive.live id (by rw [hr]; rfl) (Channels.not_returned hr (by rw [hp]; nofun))
  cases hs with
  | wroteManager hw hx =>
    obtain ⟨-, hwrote⟩ := execute_wrote hstore hx
    rw [hw] at hl
    obtain ⟨job, hpc, rfl, -⟩ := hl.head
    refine { h with refused := fun hr => ?_, finishing := fun id failure => ?_ }
    · rw [goto_pc, hpc] at hr
      unfold ManagerPc.reply ManagerPc.refused at hr
      split at hr
      · rename_i taskId event awaited current heq
        simp only [ManagerPc.write.injEq, WriteStage.replied.injEq] at heq
        obtain ⟨rfl, hrep⟩ := heq
        rw [hrep] at hwrote
        rw [hpc] at hchan
        refine (waiting hchan.answering.2).resolve_right fun hlive => ?_
        exact hwrote.notRunning hlive.2
      · cases hr
    · rw [goto_pc, ManagerPc.reply_finishing]
      exact h.finishing id failure
  | notified | ticked | turnEnded | scanStarted | cancelRejected | cancelStarted | appendStarted
  | finishIgnored | finishDropped | finalizeRejected | finalized | quiesceRejected | scanStopped
  | scanned | claimSkipped | claimStarted | claimChecked | claimAborted | claimDropped
  | claimCommitted | claimConflict | claimFailed | cancelAnswered | cancelQueued | cancelAccepted
  | finished | finishFailed | quiesced =>
    exact h.turn rfl rfl
  | quiesceRefused | quiesceStarted => exact h.freeze (.inl rfl)
  | frozen => exact h.freeze (.inr rfl)
  | @finishStarted now taskId outcome mailbox hpc hm hf hd ha =>
    refine { h with refused := nofun, finishing := fun id failure heq => ?_ }
    cases heq
    obtain ⟨result, ⟨r, hr, hp⟩, ho⟩ := hchan.finished _ _
      (.inl (by rw [hm]; exact List.mem_cons_self))
    have hthaw := (isFrozen_false hf).2
    cases result with
    | returned outcome =>
      rw [h.failed _ r failure hr (by rw [hp]; exact congrArg _ (congrArg _ ho.symm))] at hthaw
      cases hthaw
    | panicked => exact h.steady _ r hr (by rw [hp]; rfl)
  | @sent job hpc =>
    refine { h with refused := fun hr => ?_, finishing := fun id failure heq => ?_ }
    · cases job <;> cases hr
    · refine h.finishing id failure ?_
      rw [hpc]
      cases job <;> exact heq
  | @appendRejected now taskId event awaited mailbox pending error hpc hm hwhy =>
    rw [hpc] at hchan
    have hwait := hchan.rejecting hm
    refine h.answer (fun _ _ => ?_) hwait
    simp only [punctual, hm, Bool.or_eq_true, decide_eq_true_eq, hb.degraded, Bool.false_eq_true,
      or_false] at hpunctual
    rcases hwhy with hf | hd | hs | ha
    · exact hfreeze hf
    · rw [hb.degraded] at hd; cases hd
    · exact hfreeze (hpunctual.resolve_left hs)
    · exact (waiting hwait.2).resolve_right fun hlive => ha hlive.1
  | @appended taskId event awaited reply result hpc hres =>
    have href := h.refused
    rw [hpc] at hchan href
    refine h.answer (fun error he => ?_) hchan.answering
    cases reply with
    | applied eventId => rw [hres] at he; cases he
    | notRunning current => exact href rfl
  | appendFailed hpc hne =>
    obtain ⟨outcome, rfl⟩ := hb.reply _ _ hpc
    exact absurd rfl (hne outcome)
  | claimSpawned =>
    exact (h.turn rfl rfl).runner (fun _ _ hmem => absurd hmem List.not_mem_nil)
      (fun _ hres => by cases hres) (by nofun)
  | @acted taskId action runner phase hr hp hphase =>
    simp only [calm, hr, decide_eq_true_eq] at hcalm
    subst hphase
    refine h.runner (fun event error => h.rejected taskId runner event error hr) ?_ ?_
    · intro failure hres
      cases action with
      | append => cases hres
      | panic => cases hres
      | finish outcome =>
        cases hres
        obtain ⟨-, error, hlast⟩ := runSuccess_failed hcalm.symm
        obtain ⟨⟨event, result⟩, hmem, hresult⟩ := List.mem_map.1 (List.mem_of_getLast? hlast)
        cases hresult
        exact h.rejected taskId runner event error hr hmem
    · cases action with
      | append => nofun
      | finish => nofun
      | panic => exact absurd hcalm.symm (runSuccess_ne_panic _ _ _)
  | @reportedEvent taskId runner event hr hp =>
    exact h.runner (fun event error => h.rejected taskId runner event error hr) nofun nofun
  | @reportedEnd taskId runner result hr hp =>
    refine h.runner (fun event error => h.rejected taskId runner event error hr)
      (fun failure hres => h.failed taskId runner failure hr ?_) fun hres => ?_
    · rw [hp]; exact hres
    · exact h.steady taskId runner hr (by rw [hp]; exact hres)
  | _ => exact h

/-! ## Verdicts -/

/-- Rows that were terminal at the start are kept; what has become terminal
since was completed by its runner or interrupted. -/
structure Kept (start board : Board) (runners : TaskId → Option Runner) (atClose : Option Db) :
    Prop where
  settled : ∀ id, start.Settled id → board.verdict id = start.verdict id
  completed : ∀ id, board.status id = some .completed →
    start.status id = some .completed ∨ Returned runners id (.returned .succeeded)
  failed : ∀ id, board.status id = some .failed → start.status id = some .failed
  cancelled : ∀ id, board.status id = some .cancelled → start.status id = some .cancelled
  closed : ∀ d, atClose = some d → ∀ id, d.board.status id = some .running →
    board.Started id ∧ ¬ start.Settled id

/-- The gate closes. -/
theorem Kept.close {start : Board} {db : Db} {runners : TaskId → Option Runner} {atClose : Option Db}
    (h : Kept start db.board runners atClose) (gateClosed : Bool) :
    Kept start db.board runners (if gateClosed then atClose else some db) := by
  split
  · exact h
  · refine { h with closed := fun d hd id hrun => ?_ }
    cases hd
    refine ⟨⟨_, hrun, by decide⟩, fun hset => hset.not_running ?_⟩
    rw [Board.status, ← h.settled id hset]
    exact hrun

theorem kept_step {concurrency : Nat} {start : Board} (hs : Step s l s')
    (hf : Faithful concurrency start s)
    (hu : Undisturbed s.handlers s.mailbox s.manager.pc s.accepted)
    (hsin : Sincere s.control.frozen s.manager.pc s.runners)
    (h : Kept start s.db.board s.runners s.atClose) :
    Kept start s'.db.board s'.runners s'.atClose := by
  have hsettled : ∀ id, start.Settled id → s'.db.board.verdict id = start.verdict id := by
    intro id hid
    have hset : s.db.board.Settled id := by
      obtain ⟨status, hst, hterm⟩ := hid
      exact ⟨status, by rw [Board.status, h.settled id ⟨status, hst, hterm⟩]; exact hst, hterm⟩
    rw [(step_settled hs hf.sound.store hset).1, h.settled id hid]
  have hnext : Kept start s'.db.board s'.runners s.atClose := by
    refine ⟨hsettled, fun id hst => ?_, fun id hst => ?_, fun id hst => ?_, fun d hd id hrun => ?_⟩
    · have hret : Returned s.runners id (.returned .succeeded) →
          Returned s'.runners id (.returned .succeeded) :=
        step_returned hs hf.sound.scans hf.channels
      by_cases hold : s.db.board.status id = some .completed
      · exact (h.completed id hold).imp_right hret
      · exact .inr (hret (hf.completed hs ⟨hold, hst⟩))
    · by_cases hold : s.db.board.status id = some .failed
      · exact h.failed id hold
      · obtain ⟨v, -, hv, hc⟩ := Becomes.changed ⟨hold, hst⟩ hs hf.sound
        cases hc with
        | @finished outcome hpc hrun =>
          cases outcome with
          | failed failure => exact absurd (by rw [hpc]; rfl) (hsin.finishing id failure)
          | succeeded => cases hv
          | cancelled => cases hv
        | _ => cases hv
    · by_cases hold : s.db.board.status id = some .cancelled
      · exact h.cancelled id hold
      · rcases hf.cancelled hs ⟨hold, hst⟩ with ha | ⟨handler, hpc⟩
        · rw [hu.accepted] at ha
          exact absurd ha List.not_mem_nil
        · have hp := hu.pc
          rw [hpc] at hp
          cases hp
    · exact (h.closed d hd id hrun).imp_left (step_started hs hf.sound.store)
  cases hs with
  | requestQuit | shutdownStarted | panicked => exact hnext.close _
  | _ => exact hnext

/-! ## The result -/

structure Orderly (concurrency : Nat) (start : Board) (s : Primary) : Prop where
  shut : Shut concurrency s
  faithful : Faithful concurrency start s
  undisturbed : Undisturbed s.handlers s.mailbox s.manager.pc s.accepted
  unbroken : Unbroken s.manager.degraded s.writer s.manager.pc
  live : Live s.db.board s.manager.active s.control.frozen s.manager.pc s.runners
  sincere : Sincere s.control.frozen s.manager.pc s.runners
  kept : Kept start s.db.board s.runners s.atClose

variable {concurrency : Nat} {db : Db}

theorem inductive_orderly (h : Recovered db) :
    ((primary concurrency db).restrict fun s l => calm s l && punctual s l).Inductive
      (Orderly concurrency db.board) where
  init s hi := by
    subst hi
    refine ⟨(inductive_shut h).init _ rfl, (inductive_faithful h).init _ rfl,
      ⟨fun _ => List.not_mem_nil, fun _ _ => List.not_mem_nil, rfl, rfl⟩,
      ⟨rfl, fun _ hc => absurd hc List.not_mem_nil, fun _ _ hpc => ?_⟩,
      ⟨fun _ hr => ?_, fun _ _ hc => ?_⟩,
      ⟨fun _ _ _ _ hr => ?_, fun _ _ _ hr => ?_, fun _ _ hr => ?_, fun hr => ?_, fun _ _ hf => ?_⟩,
      ⟨fun _ _ => rfl, fun _ => .inl, fun _ => id, fun _ => id, fun _ hd => ?_⟩⟩
    · cases hpc
    · cases hr
    · cases hc
    · cases hr
    · cases hr
    · cases hr
    · cases hr
    · cases hf
    · cases hd
  step s l s' hs hstep := by
    obtain ⟨hok, hnext⟩ := hstep
    obtain ⟨hcalm, hpunctual⟩ := Bool.and_eq_true_iff.1 hok
    have hstep := step_of_next hnext
    obtain ⟨hshut, hf, hu, hb, hlive, hsin, hkept⟩ := hs
    have hsound := hf.sound
    exact ⟨(inductive_shut h).step s l s' hshut hnext,
      (inductive_faithful h).step s l s' hf ⟨awaiting_of_calm hcalm, hnext⟩,
      undisturbed_step hstep hcalm hu,
      unbroken_step hstep hcalm hsound.store hsound.linked hsound.recovery hb,
      live_step hstep hsound.store hsound.modes hsound.linked hsound.scans hf.channels hu hb hlive,
      sincere_step hstep hcalm hpunctual hsound.store hsound.modes hsound.linked hf.channels hb hlive
        hsin,
      kept_step hstep hf hu hsin hkept⟩

/-- **A punctual quit interrupts.** Where no event is received between the close
of the gate and the freeze, a clean shutdown leaves every task that was running
when the gate closed completed, if its runner returned `Succeeded`, or
interrupted. -/
theorem quit_interrupts (h : Recovered db)
    (hr : ((primary concurrency db).restrict fun s l => calm s l && punctual s l).Reachable s)
    (hc : s.shutdown = .done .clean) {d : Db} (hd : s.atClose = some d) {id : TaskId}
    (hrun : d.board.status id = some .running) :
    (s.db.board.status id = some .completed ∧ Returned s.runners id (.returned .succeeded)) ∨
      s.db.board.status id = some .interrupted := by
  have ho := (inductive_orderly h).reachable s hr
  obtain ⟨⟨status, hst, hq⟩, hnew⟩ := ho.kept.closed d hd id hrun
  have hnot : ∀ {status : TaskStatus}, status.isRetryable = true →
      db.board.status id ≠ some status := fun hterm hst => hnew ⟨_, hst, hterm⟩
  cases status with
  | queued => exact absurd rfl hq
  | running =>
    obtain ⟨⟨before, after⟩, hb⟩ := Option.isSome_iff_exists.1 (ho.shut.closed.clean (by rw [hc]; rfl))
    obtain ⟨rfl, hfin⟩ := ho.shut.closed.final before after hb
    obtain ⟨row, hrow, -, hrunning⟩ := row_of_status hst
    have hdone := hfin.done row hrow
    rw [hrunning] at hdone
    cases hdone
  | completed => exact .inl ⟨hst, (ho.kept.completed id hst).resolve_left (hnot rfl)⟩
  | failed => exact absurd (ho.kept.failed id hst) (hnot rfl)
  | cancelled => exact absurd (ho.kept.cancelled id hst) (hnot rfl)
  | interrupted => exact .inr hst

/-- The gate closes before the manager receives an event of the runner, and the
barrier's message comes after the runner's end. -/
def sampleRace : List Label :=
  sampleClaim ++
    [.runner sampleTask (.append ((successEvents .epoch).headD samplePlan)), .report sampleTask,
     .startShutdown, .receive (.ok .epoch), .endTurn,
     .runner sampleTask (.finish (.failed eventRejectedFailure)), .report sampleTask,
     .receive (.ok .epoch), .send, sampleWrite, .resume, .endTurn,
     .shutdown, .shutdown, .receive (.ok .epoch), .send, sampleWrite, .resume,
     .shutdown, .shutdown, .shutdown]

/-- **Counterexample.** A calm run with a clean shutdown makes a running task
fail. -/
theorem quit_race : ¬ ∀ s d id, ((primary 4 sampleDb).restrict fun s l => calm s l).Reachable s →
    s.shutdown = .done .clean → s.atClose = some d → d.board.status id = some .running →
    s.db.board.status id = some .completed ∨ s.db.board.status id = some .interrupted := by
  intro hclaim
  have hrun : (LTS.exec (LTS.guard (fun s l => calm s l) next) (.start 4 sampleDb) sampleRace).map
      (fun s => (s.shutdown, s.atClose.map fun d => d.board.status sampleTask,
        s.db.board.status sampleTask)) =
      some (.done .clean, some (some .running), some .failed) := by decide +kernel
  obtain ⟨s, hs, heq⟩ := Option.map_eq_some_iff.1 hrun
  simp only [Prod.mk.injEq] at heq
  obtain ⟨hdone, hclose, hfailed⟩ := heq
  obtain ⟨d, hd, hrunning⟩ := Option.map_eq_some_iff.1 hclose
  have hr : ((primary 4 sampleDb).restrict fun s l => calm s l).Reachable s :=
    LTS.reachable_of_exec_guard rfl hs
  have := hclaim s d sampleTask hr hdone hd hrunning
  rw [hfailed] at this
  simp at this

/-- The same quit with the event received before the gate closes. -/
def samplePunctual : List Label :=
  sampleClaim ++
    [.runner sampleTask (.append ((successEvents .epoch).headD samplePlan)), .report sampleTask,
     .receive (.ok .epoch), .send, sampleWrite, .resume, .endTurn] ++ sampleQuit

theorem quit_interrupts_sample : ∃ s d,
    ((primary 4 sampleDb).restrict fun s l => calm s l && punctual s l).Reachable s ∧
    s.shutdown = .done .clean ∧ s.atClose = some d ∧ d.board.status sampleTask = some .running ∧
    ((s.db.board.status sampleTask = some .completed ∧
      Returned s.runners sampleTask (.returned .succeeded)) ∨
        s.db.board.status sampleTask = some .interrupted) := by
  have hrun : (LTS.exec (LTS.guard (fun s l => calm s l && punctual s l) next) (.start 4 sampleDb)
      samplePunctual).map (fun s => (s.shutdown, s.atClose.map fun d => d.board.status sampleTask)) =
      some (.done .clean, some (some .running)) := by decide +kernel
  obtain ⟨s, hs, heq⟩ := Option.map_eq_some_iff.1 hrun
  obtain ⟨hdone, hclose⟩ := Prod.mk.inj heq
  obtain ⟨d, hd, hrunning⟩ := Option.map_eq_some_iff.1 hclose
  have hr : ((primary 4 sampleDb).restrict fun s l => calm s l && punctual s l).Reachable s :=
    LTS.reachable_of_exec_guard rfl hs
  exact ⟨s, d, hr, hdone, hd, hrunning, quit_interrupts recovered_sampleDb hr hdone hd hrunning⟩

end CodingAgent.L4.App
