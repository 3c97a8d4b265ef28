import CodingAgent.L4App.Coverage

/-!
# A clean shutdown is complete (`coding-agent-app/src/shutdown.rs`)

The barrier is the recovery the manager asks for when it quiesces.

* `Gated`: the quiesce message exists, and the manager is frozen, only after
  the gate was closed and idle; then no handler can send a command any more.
* `Sealed`: while the manager waits for the barrier, only commands of the
  coordinator stand behind it in the queue, whatever dropped handlers have
  left before it; once it has committed, these find nothing to recover.
* `barrier_seals`: from the commit on, the database does not change.
-/
namespace CodingAgent.L4.App
open CodingAgent.L1.Domain CodingAgent.L2.Store

variable {s s' : Primary} {l : Label}

/-! ## The gate -/

def Idle (handlers : List HandlerPc) : Prop := ∀ pc ∈ handlers, pc = .gone

structure Gated (gateClosed : Bool) (handlers : List HandlerPc) (shutdown : ShutdownPc)
    (mailbox : List TaskManagerMessage) (frozen : Bool) : Prop where
  closed : shutdown ≠ .notStarted → gateClosed = true
  idle : shutdown = .sendQuiesce ∨ .quiesce ∈ mailbox ∨ frozen = true →
    gateClosed = true ∧ Idle handlers

namespace Gated

variable {gateClosed gateClosed' frozen : Bool} {handlers handlers' : List HandlerPc}
  {shutdown shutdown' : ShutdownPc} {mailbox mailbox' : List TaskManagerMessage}

/-- Handlers that move are not idle. -/
theorem move (h : Gated gateClosed handlers shutdown mailbox frozen)
    (hidle : gateClosed = true → ¬ Idle handlers)
    (hm : TaskManagerMessage.quiesce ∈ mailbox' → .quiesce ∈ mailbox) :
    Gated gateClosed handlers' shutdown mailbox' frozen := by
  refine ⟨h.closed, fun ha => ?_⟩
  obtain ⟨hc, hi⟩ := h.idle (ha.imp_right (Or.imp_left hm))
  exact absurd hi (hidle hc)

theorem mails (h : Gated gateClosed handlers shutdown mailbox frozen)
    (hm : TaskManagerMessage.quiesce ∈ mailbox' → .quiesce ∈ mailbox)
    (hi : Idle handlers → Idle handlers') :
    Gated gateClosed handlers' shutdown mailbox' frozen :=
  ⟨h.closed, fun ha => (h.idle (ha.imp_right (Or.imp_left hm))).imp_right hi⟩

/-- The shutdown sequence goes on behind a closed gate. -/
theorem advance (h : Gated gateClosed handlers shutdown mailbox frozen) (hc : gateClosed' = true)
    (hs : shutdown' ≠ .sendQuiesce) : Gated gateClosed' handlers shutdown' mailbox frozen :=
  ⟨fun _ => hc, fun ha => ⟨hc, (h.idle (.inr (ha.resolve_left hs))).2⟩⟩

end Gated

theorem not_idle {handlers : List HandlerPc} {h : Nat} {pc : HandlerPc}
    (hpc : handlers[h]? = some pc) (hlive : pc ≠ .gone) : ¬ Idle handlers :=
  fun hi => hlive (hi pc (List.mem_of_getElem? hpc))

theorem idle_modify {handlers : List HandlerPc} {f : HandlerPc → HandlerPc} (hf : f .gone = .gone)
    (h : Nat) (hi : Idle handlers) : Idle (handlers.modify h f) := by
  intro pc hpc
  obtain ⟨i, hi'⟩ := List.mem_iff_getElem?.1 hpc
  rw [List.getElem?_modify] at hi'
  obtain ⟨pc', hpc', rfl⟩ := Option.map_eq_some_iff.1 hi'
  have hgone := hi pc' (List.mem_of_getElem? hpc')
  subst hgone
  split
  · exact hf
  · rfl

theorem posts_ne_quiesce {pc : HandlerPc} {h : Nat} {message : TaskManagerMessage}
    (hp : pc.Posts h message) : message ≠ .quiesce := by
  unfold HandlerPc.Posts at hp
  split at hp
  · rw [hp]; nofun
  · rw [hp]; nofun
  · cases hp

/-- A message other than the quiesce at the end of the mailbox. -/
theorem quiesce_push {mailbox : List TaskManagerMessage} {message : TaskManagerMessage}
    (hne : message ≠ .quiesce) (hq : TaskManagerMessage.quiesce ∈ mailbox ++ [message]) :
    .quiesce ∈ mailbox := by
  rcases List.mem_append.1 hq with hq | hq
  · exact hq
  · exact absurd (List.mem_singleton.1 hq).symm hne

theorem ShutdownMove.started {pc pc' : ShutdownPc} (h : ShutdownMove pc pc') :
    pc ≠ .notStarted ∧ pc' ≠ .sendQuiesce := by
  cases h <;> exact ⟨nofun, nofun⟩

theorem replyQuiesce_shutdown (s : Primary) (reply : QuiesceReply) :
    ((s.replyQuiesce reply).shutdown ≠ .notStarted → s.shutdown ≠ .notStarted) ∧
      ((s.replyQuiesce reply).shutdown = .sendQuiesce → s.shutdown = .sendQuiesce) := by
  simp only [Primary.replyQuiesce]
  split
  · rename_i hw
    rw [hw]
    exact ⟨fun _ => nofun, nofun⟩
  · exact ⟨id, id⟩

theorem gated_step (hs : Step s l s')
    (h : Gated s.gateClosed s.handlers s.shutdown s.mailbox s.manager.frozen) :
    Gated s'.gateClosed s'.handlers s'.shutdown s'.mailbox s'.manager.frozen := by
  cases hs with
  | enter hg hready => exact h.move (fun hc => by rw [hg] at hc; cases hc) id
  | submit hpc hlive hop => exact h.move (fun _ => not_idle hpc hlive) id
  | post hpc hlive hpost =>
    exact h.move (fun _ => not_idle hpc hlive) (quiesce_push (posts_ne_quiesce hpost))
  | leave hpc hlive => exact h.move (fun _ => not_idle hpc hlive) id
  | requestQuit hg => exact ⟨fun _ => rfl, fun ha => ⟨rfl, (h.idle ha).2⟩⟩
  | wroteHandler hw hx => exact h.mails id (idle_modify rfl _)
  | notified hpc hm | cancelRejected hpc hm =>
    exact h.mails (by rw [hm]; exact List.mem_cons_of_mem _) (idle_modify rfl _)
  | cancelStarted hpc hm | appendRejected hpc hm | appendStarted hpc hm | finishIgnored hpc hm
  | finishDropped hpc hm | finishStarted hpc hm | finalizeRejected hpc hm | finalized hpc hm =>
    exact h.mails (by rw [hm]; exact List.mem_cons_of_mem _) id
  | cancelAnswered => exact h.mails id (idle_modify rfl _)
  | quiesceRejected hpc hm =>
    have hq := replyQuiesce_shutdown s (.rejected .frozen)
    refine ⟨fun hns => h.closed (hq.1 hns), fun ha => h.idle (ha.imp hq.2 (Or.imp_left ?_))⟩
    rw [hm]
    exact List.mem_cons_of_mem _
  | quiesceRefused hpc hm | quiesceStarted hpc hm =>
    have hi := h.idle (.inr (.inl (by rw [hm]; exact List.mem_cons_self)))
    exact ⟨fun _ => hi.1, fun _ => hi⟩
  | @quiesced now reply result hpc hres =>
    have hq := replyQuiesce_shutdown s result
    exact ⟨fun hns => h.closed (hq.1 hns), fun ha => h.idle (ha.imp_left hq.2)⟩
  | reportedEvent | reportedEnd | strayed | finalizeSent => exact h.mails (quiesce_push nofun) id
  | shutdownStarted hns hpc => exact h.advance rfl (by rcases hpc with rfl | rfl <;> nofun)
  | panicked hns hnd => exact h.advance rfl nofun
  | waitedIdle hpc hidle =>
    have hc := h.closed (by rw [hpc]; nofun)
    exact ⟨fun _ => hc, fun _ => ⟨hc, by simpa [Primary.gateIdle, Idle] using hidle⟩⟩
  | quiesceSent hpc =>
    have hi := h.idle (.inl hpc)
    exact ⟨fun _ => hi.1, fun _ => hi⟩
  | shutdownMoved hmove => exact h.advance (h.closed hmove.started.1) hmove.started.2
  | frozen hpc | rootCancelled hpc | tokenCancelled hpc =>
    exact h.advance (h.closed (by rw [hpc]; nofun)) nofun
  | _ => exact h

/-! ## The barrier -/

/-- The outcome is `Clean`, or about to be. -/
def ShutdownPc.isClean : ShutdownPc → Bool
  | .quiesced (.durable _ _) | .cancelAll .clean _ | .finishing .clean | .done .clean => true
  | _ => false

/-- The manager is about to send a command, or waits for one. -/
def ManagerPc.requesting : ManagerPc → Bool
  | .write _ .sending | .write _ .waiting => true
  | _ => false

/-- Behind a command of the manager there are only the coordinator's. -/
def Behind (writer : List WriteCommand) : Prop :=
  writer.Pairwise fun a b => a.origin = .manager → b.origin = .coordinator

structure Sealed (db : Db) (writer : List WriteCommand) (frozen : Bool) (pc : ManagerPc)
    (shutdown : ShutdownPc) (barrier : Option (Db × Db)) : Prop where
  queue : pc.quiescing = true → Behind writer
  answered : ∀ now reply, pc = .write (.quiesce now) (.replied (some reply)) → barrier.isSome
  clean : shutdown.isClean = true → barrier.isSome
  frozen : barrier.isSome → frozen = true
  resting : barrier.isSome → pc.requesting = false
  alone : barrier.isSome → ∀ c ∈ writer, c.origin = .coordinator
  final : ∀ before after, barrier = some (before, after) → db = after ∧ Finalized before after

namespace Sealed

variable {db : Db} {writer : List WriteCommand} {frozen : Bool} {pc pc' : ManagerPc}
  {shutdown shutdown' : ShutdownPc} {barrier : Option (Db × Db)}

theorem open_of_thawed (h : Sealed db writer frozen pc shutdown barrier) (hf : frozen = false) :
    barrier = none := by
  cases hb : barrier with
  | none => rfl
  | some b => rw [h.frozen (by rw [hb]; rfl)] at hf; cases hf

theorem unclean (h : Sealed db writer frozen pc shutdown barrier) (hb : barrier = none) :
    shutdown.isClean = false := by
  cases hc : shutdown.isClean with
  | false => rfl
  | true => have := h.clean hc; rw [hb] at this; cases this

/-- Before the barrier only the queue and the outcome matter. -/
theorem opened (hq : pc.quiescing = true → Behind writer)
    (ha : ∀ now reply, pc ≠ .write (.quiesce now) (.replied (some reply)))
    (hc : shutdown.isClean = false) : Sealed db writer frozen pc shutdown none := by
  refine ⟨hq, fun now reply hpc => absurd hpc (ha now reply), fun hcl => ?_, fun hb => ?_,
    fun hb => ?_, fun hb => ?_, fun _ _ hb => ?_⟩
  · rw [hc] at hcl; cases hcl
  all_goals cases hb

/-- A turn to a point that is no write. -/
theorem turn (h : Sealed db writer frozen pc shutdown barrier)
    (hpc : pc'.quiescing = false ∧ pc'.requesting = false)
    (hc : shutdown'.isClean = true → barrier.isSome) :
    Sealed db writer frozen pc' shutdown' barrier := by
  refine ⟨fun hq => ?_, fun now reply hw => ?_, hc, h.frozen, fun _ => hpc.2, h.alone, h.final⟩
  · rw [hpc.1] at hq; cases hq
  · rw [hw] at hpc; cases hpc.1

/-- A turn that asks for a write while the manager is not frozen. -/
theorem ask (h : Sealed db writer frozen pc shutdown barrier) (hf : frozen = false)
    (hpc : pc'.quiescing = false) : Sealed db writer frozen pc' shutdown barrier := by
  have hb := h.open_of_thawed hf
  have hclean := h.unclean hb
  rw [hb]
  refine opened (fun hq => ?_) (fun now reply hw => ?_) hclean
  · rw [hpc] at hq; cases hq
  · rw [hw] at hpc; cases hpc

/-- The shutdown sequence goes on. -/
theorem shut (h : Sealed db writer frozen pc shutdown barrier)
    (hc : shutdown'.isClean = true → barrier.isSome) :
    Sealed db writer frozen pc shutdown' barrier :=
  { h with clean := hc }

/-- The queue gets a command of the coordinator. -/
theorem push (h : Sealed db writer frozen pc shutdown barrier) {command : WriteCommand}
    (ho : command.origin = .coordinator) :
    Sealed db (writer ++ [command]) frozen pc shutdown barrier := by
  refine ⟨fun hq => ?_, h.answered, h.clean, h.frozen, h.resting, fun hb c hc => ?_, h.final⟩
  · exact List.pairwise_append.2 ⟨h.queue hq, List.pairwise_singleton _ _,
      fun a _ b hb _ => (List.mem_singleton.1 hb) ▸ ho⟩
  · rcases List.mem_append.1 hc with hc | hc
    · exact h.alone hb c hc
    · exact (List.mem_singleton.1 hc) ▸ ho

/-- The head of the queue is executed without a change to the database. -/
theorem tail {command : WriteCommand}
    (h : Sealed db (command :: writer) frozen pc shutdown barrier) :
    Sealed db writer frozen pc shutdown barrier :=
  ⟨fun hq => (List.pairwise_cons.1 (h.queue hq)).2, h.answered, h.clean, h.frozen, h.resting,
    fun hb c hc => h.alone hb c (List.mem_cons_of_mem _ hc), h.final⟩

end Sealed

/-- Without a command of the manager nothing is behind one. -/
theorem behind_of_none {writer : List WriteCommand}
    (h : writer.filter (fun c => c.origin = .manager) = []) : Behind writer :=
  List.pairwise_of_forall_mem_list fun a ha _ _ hm =>
    absurd (decide_eq_true hm) (List.filter_eq_nil_iff.1 h a ha)

theorem ShutdownMove.clean {pc pc' : ShutdownPc} (h : ShutdownMove pc pc')
    (hc : pc'.isClean = true) : pc.isClean = true := by
  cases h with
  | durable => rfl
  | cancelled o | finished o => cases o <;> first | rfl | cases hc
  | _ => cases hc

theorem execute_recover {env : Env} {repositoryId : RepositoryId} {fails : Bool} {db db' : Db}
    {now : UtcTimestamp} {failure : TaskFailure} {outcome : Option StoreWriterOperationOutcome}
    (hx : (StoreWriterOperation.task (.recoverIncomplete now failure)).execute env repositoryId
      fails db = (outcome, db')) :
    (outcome = none ∧ db' = db) ∨ ∃ recovery, outcome = some (.task (.recovery recovery)) ∧
      recoverIncomplete env now failure db = .ok (recovery, db') := by
  simp only [StoreWriterOperation.execute, Call.run] at hx
  cases fails with
  | true =>
    cases hx
    exact .inl ⟨rfl, rfl⟩
  | false =>
    cases hop : (Operation.recoverIncomplete now failure).tx env db with
    | error error =>
      simp only [hop] at hx
      cases hx
      exact .inl ⟨rfl, rfl⟩
    | ok r =>
      obtain ⟨reply, db''⟩ := r
      simp only [hop] at hx
      cases hx
      obtain ⟨recovery, hok, rfl⟩ := tx_map_ok.1 hop
      exact .inr ⟨recovery, rfl, hok⟩

theorem sealed_wroteManager {env : Env} {repositoryId : RepositoryId} {fails : Bool}
    {operation : StoreWriterOperation} {writer : List WriteCommand}
    {outcome : Option StoreWriterOperationOutcome} {db : Db}
    (hw : s.writer = ⟨operation, .manager⟩ :: writer)
    (hx : operation.execute env repositoryId fails s.db = (outcome, db))
    (hstore : ∃ log, Reflects s.db log) (hmode : Modes s.manager s.control)
    (hl : Linked s.writer s.manager.pc)
    (h : Sealed s.db s.writer s.manager.frozen s.manager.pc s.shutdown s.barrier) :
    Sealed db writer s.manager.frozen (s.manager.pc.reply (outcome.bind (·.reply?))) s.shutdown
      (Primary.barrierAfter s.db db ⟨operation, .manager⟩ outcome s.barrier) := by
  -- the head of the queue shows that the barrier has not committed
  have hb : s.barrier = none := by
    cases hb : s.barrier with
    | none => rfl
    | some b =>
      have ho := h.alone (by rw [hb]; rfl) ⟨operation, .manager⟩
        (by rw [hw]; exact List.mem_cons_self)
      cases ho
  have hclean := h.unclean hb
  rw [hw] at hl
  obtain ⟨job, hpc, rfl, -⟩ := hl.head
  rw [hpc, hb]
  cases job with
  | quiesce now =>
    have hbehind := h.queue (by rw [hpc]; rfl)
    rw [hw] at hbehind
    obtain ⟨hafter, hrest⟩ := List.pairwise_cons.1 hbehind
    rcases execute_recover hx with ⟨rfl, rfl⟩ | ⟨recovery, rfl, hok⟩
    · exact .opened (fun _ => hrest) (fun _ _ he => by cases he) hclean
    · obtain ⟨log, hlog⟩ := hstore
      refine ⟨fun _ => hrest, fun _ _ _ => rfl, fun _ => rfl, fun _ => ?_, fun _ => rfl,
        fun _ c hc => hafter c hc rfl, fun before after hba => ?_⟩
      · exact hmode.quiescing (by rw [hpc]; rfl)
      · cases hba
        exact ⟨rfl, recoverIncomplete_finalized hlog hok⟩
  | claim | cancel | append | finish =>
    exact .opened (fun hq => by cases hq) (fun _ _ he => by cases he) hclean

/-- Only a durable reply makes the outcome clean. -/
theorem replyQuiesce_clean {reply : QuiesceReply} {barrier : Option (Db × Db)}
    (h : s.shutdown.isClean = true → barrier.isSome)
    (hr : ∀ recovery active, reply = .durable recovery active → barrier.isSome)
    (hc : (s.replyQuiesce reply).shutdown.isClean = true) : barrier.isSome := by
  simp only [Primary.replyQuiesce] at hc
  split at hc
  · cases reply with
    | durable recovery active => exact hr recovery active rfl
    | frozen => cases hc
    | rejected => cases hc
  · exact h hc

theorem sealed_step (hs : Step s l s') (hstore : ∃ log, Reflects s.db log)
    (hmode : Modes s.manager s.control) (hl : Linked s.writer s.manager.pc)
    (hg : Gated s.gateClosed s.handlers s.shutdown s.mailbox s.manager.frozen)
    (h : Sealed s.db s.writer s.manager.frozen s.manager.pc s.shutdown s.barrier) :
    Sealed s'.db s'.writer s'.manager.frozen s'.manager.pc s'.shutdown s'.barrier := by
  have unsent : s.manager.pc.inFlight = [] → Behind s.writer :=
    fun hf => behind_of_none (hl.manager.trans hf)
  cases hs with
  | wroteManager hw hx => exact sealed_wroteManager hw hx hstore hmode hl h
  | wroteCoordinator hw hx =>
    rw [hw] at h hl
    obtain ⟨now, hop⟩ := hl.coordinator _ List.mem_cons_self rfl
    obtain rfl := hop
    have ht := h.tail
    refine { ht with final := fun before after hba => ?_ }
    obtain ⟨rfl, hfin⟩ := ht.final before after hba
    rcases execute_recover hx with ⟨-, rfl⟩ | ⟨recovery, -, hok⟩
    · exact ⟨rfl, hfin⟩
    · exact ⟨recoverIncomplete_idle hfin.done hok, hfin⟩
  | wroteHandler hw hx =>
    rw [hw] at h
    have ht := h.tail
    refine { ht with final := fun before after hba => ?_ }
    have ho := h.alone (by rw [hba]; rfl) _ List.mem_cons_self
    cases ho
  | submit hpc hlive hop =>
    have hf : s.manager.frozen = false := by
      cases hf : s.manager.frozen with
      | false => rfl
      | true => exact absurd (hg.idle (.inr (.inr hf))).2 (not_idle hpc hlive)
    refine { h with queue := fun hq => ?_, alone := fun hb => ?_ }
    · have hfrozen := hmode.quiescing hq
      rw [hf] at hfrozen
      cases hfrozen
    · rw [h.open_of_thawed hf] at hb
      cases hb
  | recoverySent hc => exact h.push rfl
  | @sent job hpc =>
    have hb : s.barrier = none := by
      cases hb : s.barrier with
      | none => rfl
      | some b =>
        have hrest := h.resting (by rw [hb]; rfl)
        rw [hpc] at hrest
        cases hrest
    have hclean := h.unclean hb
    have hnil : s.manager.pc.inFlight = [] := by rw [hpc]; rfl
    have hnone := hl.manager.trans hnil
    rw [hb]
    refine .opened (fun _ => ?_) (fun _ _ he => by cases he) hclean
    exact List.pairwise_append.2 ⟨unsent hnil, List.pairwise_singleton _ _,
      fun a ha _ _ hm => absurd (decide_eq_true hm) (List.filter_eq_nil_iff.1 hnone a ha)⟩
  | notified | ticked | turnEnded | scanStarted | cancelRejected | cancelStarted | appendRejected
  | finishIgnored | finishDropped | finalizeRejected | finalized | scanStopped | scanned
  | claimSkipped | claimAborted | claimDropped | claimSpawned | claimConflict | claimFailed
  | cancelAnswered | cancelAccepted | appended | appendFailed | finished | finishFailed =>
    exact h.turn ⟨rfl, rfl⟩ h.clean
  | appendStarted hpc hm hf | finishStarted hpc hm hf => exact h.ask (isFrozen_false hf).1 rfl
  | claimStarted hpc | claimChecked hpc | claimCommitted hpc | cancelQueued hpc =>
    exact h.ask (hmode.awake (by rw [hpc]; rfl)).2 rfl
  | quiesceRejected hpc hm => exact h.turn ⟨rfl, rfl⟩ (replyQuiesce_clean h.clean nofun)
  | @quiesceRefused message mailbox hpc hm hf =>
    have hb := h.open_of_thawed (isFrozen_false hf).1
    have hclean : (s.replyQuiesce (.rejected (.invariant message))).shutdown.isClean = true →
        s.barrier.isSome := replyQuiesce_clean h.clean nofun
    show Sealed s.db s.writer true .turnEnd
      (s.replyQuiesce (.rejected (.invariant message))).shutdown s.barrier
    rw [hb] at hclean ⊢
    refine .opened (fun hq => by cases hq) (fun _ _ he => by cases he)
      (eq_false_of_ne_true fun hc => ?_)
    cases hclean hc
  | quiesceStarted hpc hm hf =>
    have hb := h.open_of_thawed (isFrozen_false hf).1
    have hclean := h.unclean hb
    show Sealed s.db s.writer true (.write (.quiesce _) .sending) s.shutdown s.barrier
    rw [hb]
    exact .opened (fun _ => unsent (by rw [hpc]; rfl)) (fun _ _ he => by cases he) hclean
  | @quiesced now reply result hpc hres =>
    refine h.turn ⟨rfl, rfl⟩ (replyQuiesce_clean h.clean ?_)
    rintro recovery active rfl
    exact h.answered now (.recovery recovery) (by rw [hpc, hres recovery active rfl])
  | shutdownStarted hns hpc => exact h.shut (by rcases hpc with rfl | rfl <;> nofun)
  | panicked | waitedIdle | quiesceSent | frozen | rootCancelled => exact h.shut nofun
  | shutdownMoved hmove => exact h.shut fun hc => h.clean (hmove.clean hc)
  | @tokenCancelled outcome id active hpc =>
    refine h.shut fun hc => h.clean ?_
    rw [hpc]
    cases outcome <;> first | rfl | cases hc
  | _ => exact h

/-! ## The result -/

structure Shut (concurrency : Nat) (s : Primary) : Prop where
  sound : Sound concurrency s
  gated : Gated s.gateClosed s.handlers s.shutdown s.mailbox s.manager.frozen
  closed : Sealed s.db s.writer s.manager.frozen s.manager.pc s.shutdown s.barrier

variable {concurrency : Nat} {db : Db}

theorem inductive_shut (h : Recovered db) :
    (primary concurrency db).Inductive (Shut concurrency) where
  init s hi := by
    subst hi
    refine ⟨sound_start h, ⟨fun hn => absurd rfl hn, fun ha => ?_⟩,
      .opened (fun hq => by cases hq) (fun _ _ he => by cases he) rfl⟩
    rcases ha with ha | ha | ha <;> cases ha
  step _ _ _ hs hstep := by
    have hstep := step_of_next hstep
    exact ⟨sound_step hstep hs.sound, gated_step hstep hs.gated,
      sealed_step hstep hs.sound.store hs.sound.modes hs.sound.linked hs.gated hs.closed⟩

/-- The barrier commits once. -/
theorem barrier_step (hs : Step s l s') (h : Shut concurrency s) {b : Db × Db}
    (hb : s.barrier = some b) : s'.barrier = some b := by
  cases hs with
  | wroteManager hw hx =>
    have ho := h.closed.alone (by rw [hb]; rfl) _ (by rw [hw]; exact List.mem_cons_self)
    cases ho
  | _ => exact hb

/-- **A clean shutdown is complete.** The outcome is `Clean` only after the
recovery of the barrier has committed. It left no task queued or running and
every task that was already terminal as it was, row and events; and in whatever
the primary does from then on the database stays the one it left. -/
theorem clean_shutdown_complete (h : Recovered db) (hr : (primary concurrency db).Reachable s) :
    (s.shutdown = .done .clean → s.barrier.isSome) ∧
    ∀ before after, s.barrier = some (before, after) →
      (∀ row ∈ after.tasks, row.status ≠ .queued ∧ row.status ≠ .running) ∧
      (∀ row ∈ before.tasks, row.status ≠ .queued → row.status ≠ .running →
        row ∈ after.tasks ∧ after.events.filter (fun e => e.taskId = row.id) =
          before.events.filter fun e => e.taskId = row.id) ∧
      ∀ ls s', (primary concurrency db).Run s ls s' → s'.db = after := by
  have hs := (inductive_shut h).reachable s hr
  refine ⟨fun hc => hs.closed.clean (by rw [hc]; rfl), fun before after hb => ?_⟩
  obtain ⟨-, hfin⟩ := hs.closed.final before after hb
  refine ⟨fun row hrow => ?_, fun row hrow hq hrun => hfin.kept row hrow ?_, fun ls s' hrun => ?_⟩
  · have := hfin.done row hrow
    constructor <;> intro hst <;> rw [hst] at this <;> cases this
  · simp [isIncomplete, hq, hrun]
  · have hstep : ∀ s l s', Shut concurrency s ∧ s.barrier = some (before, after) →
        (primary concurrency db).step s l s' →
        Shut concurrency s' ∧ s'.barrier = some (before, after) :=
      fun s l s' hp hl => ⟨(inductive_shut h).step s l s' hp.1 hl,
        barrier_step (step_of_next hl) hp.1 hp.2⟩
    have hkeep := hrun.preserves hstep ⟨hs, hb⟩
    exact (hkeep.1.closed.final before after hkeep.2).1

/-- A quit while a task runs. -/
def sampleQuit : List Label :=
  [.startShutdown, .shutdown, .shutdown, .receive (.ok .epoch), .send, sampleWrite, .resume,
   .shutdown, .shutdown, .shutdown, .shutdown]

def statuses (db : Db) : List TaskStatus := db.tasks.map (·.status)

theorem clean_shutdown_complete_sample : ∃ s before after, (primary 4 sampleDb).Reachable s ∧
    s.shutdown = .done .clean ∧ s.barrier = some (before, after) ∧ statuses before = [.running] ∧
    statuses after = [.interrupted] ∧
    ∀ row ∈ after.tasks, row.status ≠ .queued ∧ row.status ≠ .running := by
  have hrun : (LTS.exec next (.start 4 sampleDb) (sampleClaim ++ sampleQuit)).map (fun s =>
      (s.shutdown, s.barrier.map fun b => (statuses b.1, statuses b.2))) =
        some (.done .clean, some ([.running], [.interrupted])) := by decide +kernel
  obtain ⟨s, hs, heq⟩ := Option.map_eq_some_iff.1 hrun
  obtain ⟨hdone, hbarrier⟩ := Prod.mk.inj heq
  obtain ⟨⟨before, after⟩, hb, hst⟩ := Option.map_eq_some_iff.1 hbarrier
  obtain ⟨hbefore, hafter⟩ := Prod.mk.inj hst
  have hr : (primary 4 sampleDb).Reachable s := LTS.reachable_of_exec rfl hs
  exact ⟨s, before, after, hr, hdone, hb, hbefore, hafter,
    ((clean_shutdown_complete recovered_sampleDb hr).2 before after hb).1⟩

end CodingAgent.L4.App
