import CodingAgent.L4App.Step

/-!
# Invariants of the primary

Each group of facts is a structure over the components it speaks of, proved by
cases on `Step`.

* `Slots`: every entry of `active` holds a permit.
* `Modes`: a degraded or frozen manager waits between two messages, or for the
  barrier's recovery.
* `Linked`: the manager has one command in the writer's queue while it waits
  for one, and it is the one its write asks for.
* `Recovery`: there is a coordinator only in the degraded mode, and no task is
  running from the commit of its recovery to its end.

`step_wrote` is the one fact about the store: a step either leaves the database
alone or executes the head of the writer's queue.
-/
namespace CodingAgent.L4.App
open CodingAgent.L1.Domain CodingAgent.L2.Store

variable {s s' : Primary} {l : Label}

@[simp] theorem goto_pc (m : Manager) (pc : ManagerPc) : (m.goto pc).pc = pc := rfl

/-! ## Permits -/

/-- Every entry holds a permit. -/
structure Slots (concurrency : Nat) (m : Manager) : Prop where
  total : m.permits + m.active.length = concurrency
  nodup : m.active.Nodup

namespace Slots

variable {concurrency : Nat} {m : Manager}

theorem insert (h : Slots concurrency m) {id : TaskId} (hn : id ∉ m.active) (hp : m.permits ≠ 0) :
    Slots concurrency (m.insertActive id) := by
  refine ⟨?_, List.nodup_cons.2 ⟨hn, h.nodup⟩⟩
  have := h.total
  simp only [Manager.insertActive, List.length_cons]
  omega

theorem remove (h : Slots concurrency m) (id : TaskId) : Slots concurrency (m.removeActive id) := by
  refine ⟨?_, h.nodup.erase id⟩
  have := h.total
  simp only [Manager.removeActive]
  split
  · rename_i hmem
    have := List.length_pos_of_mem hmem
    rw [List.length_erase_of_mem hmem]
    omega
  · rename_i hmem
    rwa [List.erase_of_not_mem hmem]

/-- Only the two lists of facts matter. -/
theorem congr {m' : Manager} (h : Slots concurrency m) (ha : m'.active = m.active)
    (hp : m'.permits = m.permits) : Slots concurrency m' :=
  ⟨by rw [ha, hp]; exact h.total, by rw [ha]; exact h.nodup⟩

end Slots

theorem slots_step {concurrency : Nat} (hs : Step s l s') (h : Slots concurrency s.manager) :
    Slots concurrency s'.manager := by
  cases hs with
  | claimStarted hpc hn hp hf => exact (h.insert hn hp).congr rfl rfl
  | finishDropped hpc hm hf => exact (h.remove _).congr rfl rfl
  | claimAborted hpc => exact (h.remove _).congr rfl rfl
  | claimDropped hpc hf => exact (h.remove _).congr rfl rfl
  | claimConflict hpc => exact (h.remove _).congr rfl rfl
  | claimFailed hpc hne => exact (h.remove _).congr rfl rfl
  | finished hpc => exact (h.remove _).congr rfl rfl
  | finishFailed hpc hne => exact (h.remove _).congr rfl rfl
  | _ => exact h.congr rfl rfl

/-! ## Modes -/

namespace ManagerPc

/-- Between two messages, or waiting for the barrier's recovery. -/
def quiet : ManagerPc → Bool
  | .idle | .turnEnd | .write (.quiesce _) _ => true
  | _ => false

def quiescing : ManagerPc → Bool
  | .write (.quiesce _) _ => true
  | _ => false

/-- The task of the claim in progress. -/
def claimed : ManagerPc → Option TaskId
  | .write (.claim task _ _ _) _ => some task.id
  | _ => none

@[simp] theorem reply_quiet (pc : ManagerPc) (reply : Option Reply) :
    (pc.reply reply).quiet = pc.quiet := by
  unfold ManagerPc.reply
  split
  · rename_i job
    cases job <;> rfl
  · rfl

@[simp] theorem reply_quiescing (pc : ManagerPc) (reply : Option Reply) :
    (pc.reply reply).quiescing = pc.quiescing := by
  unfold ManagerPc.reply
  split
  · rename_i job
    cases job <;> rfl
  · rfl

@[simp] theorem reply_claimed (pc : ManagerPc) (reply : Option Reply) :
    (pc.reply reply).claimed = pc.claimed := by
  unfold ManagerPc.reply
  split
  · rename_i job
    cases job <;> rfl
  · rfl

end ManagerPc

/-- A degraded or frozen manager starts nothing. -/
structure Modes (m : Manager) (control : ShutdownControl) : Prop where
  frozen : m.frozen = true → control.frozen = true
  quiet : m.degraded = true ∨ m.frozen = true → m.pc.quiet = true
  quiescing : m.pc.quiescing = true → m.frozen = true
  claimed : ∀ id, m.pc.claimed = some id → id ∈ m.active

namespace Modes

variable {m m' : Manager} {control : ShutdownControl}

/-- A turn that stays in its mode and ends at a program point without a claim. -/
theorem turn (h : Modes m control) (hf : m'.frozen = m.frozen)
    (hq : m'.degraded = true ∨ m'.frozen = true → m'.pc.quiet = true)
    (hqc : m'.pc.quiescing = true → m.pc.quiescing = true) (hc : m'.pc.claimed = none) :
    Modes m' control :=
  ⟨by rw [hf]; exact h.frozen, hq, fun hx => by rw [hf]; exact h.quiescing (hqc hx),
    fun id hid => by rw [hc] at hid; cases hid⟩

/-- Where a manager that is not at a quiet point is, neither mode is on. -/
theorem awake (h : Modes m control) (hq : m.pc.quiet = false) :
    m.degraded = false ∧ m.frozen = false := by
  constructor
  · cases hd : m.degraded with
    | false => rfl
    | true => rw [h.quiet (.inl hd)] at hq; cases hq
  · cases hf : m.frozen with
    | false => rfl
    | true => rw [h.quiet (.inr hf)] at hq; cases hq

end Modes

theorem isFrozen_false (h : s.isFrozen = false) :
    s.manager.frozen = false ∧ s.control.frozen = false := by
  simpa [Primary.isFrozen] using h

theorem claimsAllowed_true (h : s.claimsAllowed = true) :
    s.manager.degraded = false ∧ s.isFrozen = false := by
  simp only [Primary.claimsAllowed, Bool.and_eq_true, Bool.not_eq_true'] at h
  exact h.1

theorem quiet_of_awake {m : Manager} (hd : m.degraded = false) (hf : m.frozen = false) {b : Prop} :
    m.degraded = true ∨ m.frozen = true → b := by
  rw [hd, hf]
  simp

theorem modes_step (hs : Step s l s') (h : Modes s.manager s.control) :
    Modes s'.manager s'.control := by
  -- a step from a point that is not quiet finds both modes off
  have awake : s.manager.pc.quiet = false → ∀ {b : Prop},
      s.manager.degraded = true ∨ s.manager.frozen = true → b := by
    intro hq b
    obtain ⟨hd, hf⟩ := h.awake hq
    exact quiet_of_awake hd hf
  have running : s.isFrozen = false → s.manager.degraded = false → ∀ {b : Prop},
      s.manager.degraded = true ∨ s.manager.frozen = true → b := by
    intro hf hd b
    exact quiet_of_awake hd (isFrozen_false hf).1
  cases hs with
  | wroteManager hw hx =>
    refine ⟨h.frozen, fun hq => ?_, fun hq => ?_, fun id hid => ?_⟩
    · rw [goto_pc, ManagerPc.reply_quiet]; exact h.quiet hq
    · rw [goto_pc, ManagerPc.reply_quiescing] at hq; exact h.quiescing hq
    · rw [goto_pc, ManagerPc.reply_claimed] at hid; exact h.claimed id hid
  | notified | ticked | turnEnded | cancelRejected | appendRejected | finishIgnored | finishDropped
  | finalizeRejected | finalized | quiesceRejected | scanStopped | claimAborted | claimDropped
  | claimFailed | cancelAnswered | appended | appendFailed | finished | finishFailed | quiesced =>
    exact h.turn rfl (fun _ => rfl) nofun rfl
  | scanStarted hpc hc =>
    obtain ⟨hd, hf⟩ := claimsAllowed_true hc
    exact h.turn rfl (running hf hd) nofun rfl
  | cancelStarted hpc hm hf hd => exact h.turn rfl (running hf hd) nofun rfl
  | appendStarted hpc hm hf hd | finishStarted hpc hm hf hd =>
    exact h.turn rfl (running hf hd) nofun rfl
  | quiesceRefused => exact ⟨fun _ => rfl, fun _ => rfl, nofun, nofun⟩
  | quiesceStarted => exact ⟨fun _ => rfl, fun _ => rfl, fun _ => rfl, nofun⟩
  | scanned hpc | claimSkipped hpc | claimSpawned hpc | claimConflict hpc | cancelQueued hpc =>
    exact h.turn rfl (awake (by rw [hpc]; rfl)) nofun rfl
  | claimStarted hpc hn hp hf =>
    refine ⟨h.frozen, awake (by rw [hpc]; rfl), nofun, fun id hid => ?_⟩
    cases hid
    exact List.mem_cons_self
  | claimChecked hpc | claimCommitted hpc =>
    refine ⟨h.frozen, awake (by rw [hpc]; rfl), nofun, fun id hid => h.claimed id ?_⟩
    rw [hpc]
    exact hid
  | @sent job hpc =>
    have hq := h.quiet
    have hqc := h.quiescing
    have hc := h.claimed
    rw [hpc] at hq hqc hc
    cases job <;> exact ⟨h.frozen, hq, hqc, hc⟩
  | cancelAccepted ht hst ha =>
    refine h.turn rfl (awake ?_) nofun rfl
    rcases ht with ⟨hpc, -⟩ | hpc <;> rw [hpc] <;> rfl
  | frozen hpc => exact ⟨fun _ => rfl, h.quiet, h.quiescing, h.claimed⟩
  | rootCancelled hpc => exact ⟨h.frozen, h.quiet, h.quiescing, h.claimed⟩
  | _ => exact h

/-! ## The manager's command -/

/-- What the manager has in the writer's queue. -/
def ManagerPc.inFlight : ManagerPc → List WriteCommand
  | .write job .waiting => [⟨.task job.operation, .manager⟩]
  | _ => []

structure Linked (writer : List WriteCommand) (pc : ManagerPc) : Prop where
  manager : writer.filter (fun c => c.origin = .manager) = pc.inFlight
  coordinator : ∀ c ∈ writer, c.origin = .coordinator →
    ∃ now, c.operation = .task (.recoverIncomplete now degradedRecoveryFailure)
  handler : ∀ c ∈ writer, ∀ h, c.origin = .handler h → c.operation.IsCreation

namespace Linked

variable {writer : List WriteCommand} {pc pc' : ManagerPc}

theorem turn (h : Linked writer pc) (hpc : pc.inFlight = []) (hpc' : pc'.inFlight = []) :
    Linked writer pc' :=
  ⟨by rw [hpc', ← hpc]; exact h.manager, h.coordinator, h.handler⟩

theorem push (h : Linked writer pc) {command : WriteCommand}
    (hm : pc'.inFlight = pc.inFlight ++ [command].filter fun c => c.origin = .manager)
    (hc : command.origin = .coordinator →
      ∃ now, command.operation = .task (.recoverIncomplete now degradedRecoveryFailure))
    (hh : ∀ h, command.origin = .handler h → command.operation.IsCreation) :
    Linked (writer ++ [command]) pc' := by
  refine ⟨by rw [hm, ← h.manager]; exact List.filter_append .., fun c hmem => ?_, fun c hmem => ?_⟩
  · rcases List.mem_append.1 hmem with hmem | hmem
    · exact h.coordinator c hmem
    · exact List.mem_singleton.1 hmem ▸ hc
  · rcases List.mem_append.1 hmem with hmem | hmem
    · exact h.handler c hmem
    · exact List.mem_singleton.1 hmem ▸ hh

theorem tail {command : WriteCommand} (h : Linked (command :: writer) pc)
    (hm : writer.filter (fun c => c.origin = .manager) = pc'.inFlight) : Linked writer pc' :=
  ⟨hm, fun c hc => h.coordinator c (List.mem_cons_of_mem _ hc),
    fun c hc => h.handler c (List.mem_cons_of_mem _ hc)⟩

/-- A command of the manager at the head is the one it waits for. -/
theorem head {operation : StoreWriterOperation} (h : Linked (⟨operation, .manager⟩ :: writer) pc) :
    ∃ job, pc = .write job .waiting ∧ operation = .task job.operation ∧
      writer.filter (fun c => c.origin = .manager) = [] := by
  have hm := h.manager
  rw [List.filter_cons_of_pos (by simp)] at hm
  unfold ManagerPc.inFlight at hm
  split at hm
  · rename_i job
    simp only [List.cons.injEq, WriteCommand.mk.injEq, and_true] at hm
    exact ⟨job, rfl, hm.1, hm.2⟩
  · cases hm

theorem other {operation : StoreWriterOperation} {origin : Origin}
    (h : Linked (⟨operation, origin⟩ :: writer) pc) (ho : origin ≠ .manager) : Linked writer pc := by
  refine h.tail ?_
  have hm := h.manager
  rwa [List.filter_cons_of_neg (by simpa using ho)] at hm

end Linked

theorem answering_cancelling {pc : ManagerPc} (h : pc.answering = true) : pc.cancelling = true := by
  unfold ManagerPc.answering at h
  split at h <;> first | rfl | cases h

theorem answering_inFlight {pc : ManagerPc} (h : pc.answering = true) : pc.inFlight = [] := by
  unfold ManagerPc.answering at h
  split at h <;> first | rfl | cases h

theorem cancelTarget_answering {taskId : TaskId} {handler : Nat} {task : Task}
    (h : s.CancelTarget taskId handler task) : s.manager.pc.answering = true := by
  rcases h with ⟨hpc, -⟩ | hpc <;> rw [hpc] <;> rfl

theorem linked_step (hs : Step s l s') (h : Linked s.writer s.manager.pc) :
    Linked s'.writer s'.manager.pc := by
  cases hs with
  | submit hpc hlive hop => exact h.push (by simp) nofun fun _ _ => hop
  | recoverySent hc => exact h.push (by simp) (fun _ => ⟨_, rfl⟩) nofun
  | wroteManager hw hx =>
    rw [hw] at h
    obtain ⟨job, hpc, -, hnil⟩ := h.head
    refine h.tail (hnil.trans ?_)
    rw [goto_pc, hpc]
    rfl
  | wroteCoordinator hw hx =>
    rw [hw] at h
    exact h.other (by simp)
  | wroteHandler hw hx =>
    rw [hw] at h
    exact h.other (by simp)
  | sent hpc => exact h.push (by rw [hpc]; rfl) nofun nofun
  | notified hpc | ticked hpc | turnEnded hpc | scanStarted hpc | cancelRejected hpc
  | cancelStarted hpc | appendRejected hpc | appendStarted hpc | finishIgnored hpc
  | finishDropped hpc | finishStarted hpc | finalizeRejected hpc | finalized hpc
  | quiesceRejected hpc | quiesceRefused hpc | quiesceStarted hpc | scanned hpc | claimSkipped hpc
  | claimStarted hpc | claimDropped hpc | claimCommitted hpc | claimSpawned hpc | claimConflict hpc
  | claimFailed hpc | cancelQueued hpc | appended hpc | appendFailed hpc | finished hpc | finishFailed hpc
  | quiesced hpc => exact h.turn (by rw [hpc]; rfl) rfl
  | scanStopped hpc =>
    refine h.turn ?_ rfl
    rcases hpc with hpc | ⟨queue, repositories, hpc⟩ <;> rw [hpc] <;> rfl
  | claimChecked hpc hst =>
    rcases hst with ⟨rfl, rfl⟩ | ⟨rfl, rfl⟩ <;> exact h.turn (by rw [hpc]; rfl) rfl
  | claimAborted hpc hst =>
    rcases hst with rfl | rfl <;> exact h.turn (by rw [hpc]; rfl) rfl
  | cancelAnswered hc => exact h.turn (answering_inFlight hc) rfl
  | cancelAccepted ht => exact h.turn (answering_inFlight (cancelTarget_answering ht)) rfl
  | _ => exact h

/-- Only the manager starts a task. -/
theorem Linked.not_start_of_other {command : WriteCommand} {writer : List WriteCommand}
    {pc : ManagerPc} (h : Linked (command :: writer) pc) (ho : command.origin ≠ .manager)
    {id : TaskId} : command.operation ≠ .task (.transitionWithEvent id .queued .running) := by
  intro hop
  cases hor : command.origin with
  | manager => exact ho hor
  | coordinator =>
    obtain ⟨now, hrec⟩ := h.coordinator _ List.mem_cons_self hor
    rw [hop] at hrec
    cases hrec
  | handler n =>
    have hcr := h.handler _ List.mem_cons_self n hor
    rw [hop] at hcr
    exact hcr

/-- Only a claim starts a task. -/
theorem Linked.not_start {command : WriteCommand} {writer : List WriteCommand} {pc : ManagerPc}
    (h : Linked (command :: writer) pc) {id : TaskId} (hc : pc.claimed ≠ some id) :
    command.operation ≠ .task (.transitionWithEvent id .queued .running) := by
  by_cases ho : command.origin = .manager
  · obtain ⟨operation, origin⟩ := command
    obtain rfl := ho
    obtain ⟨job, rfl, rfl, -⟩ := h.head
    rintro hop
    cases job with
    | claim task repository rest repositories =>
      cases hop
      exact hc rfl
    | cancel => cases hop
    | append => cases hop
    | finish taskId outcome => cases hop
    | quiesce => cases hop
  · exact h.not_start_of_other ho

/-! ## The store -/

/-- A step leaves the database alone or executes the head of the queue. -/
theorem step_wrote (hs : Step s l s') (h : ∃ log, Reflects s.db log) :
    (∃ log, Reflects s'.db log) ∧ (s'.db = s.db ∨ ∃ command writer reply,
      s.writer = command :: writer ∧ Wrote s.db.board command.operation reply s'.db.board) := by
  cases hs with
  | wroteManager hw hx | wroteCoordinator hw hx | wroteHandler hw hx =>
    obtain ⟨hlog, hwrote⟩ := execute_wrote h hx
    exact ⟨hlog, .inr ⟨_, _, _, hw, hwrote⟩⟩
  | _ => exact ⟨h, .inl rfl⟩

/-- The log of the store only grows. -/
theorem step_grows (hs : Step s l s') {log : List TaskEvent} (h : Reflects s.db log) :
    ∃ new, Reflects s'.db (log ++ new) := by
  cases hs with
  | wroteManager hw hx | wroteCoordinator hw hx | wroteHandler hw hx => exact (execute_grows h hx).1
  | _ => exact ⟨[], by rwa [List.append_nil]⟩

theorem step_started (hs : Step s l s') (h : ∃ log, Reflects s.db log) {id : TaskId}
    (hid : s.db.board.Started id) : s'.db.board.Started id := by
  rcases (step_wrote hs h).2 with heq | ⟨command, writer, reply, -, hw⟩
  · rwa [heq]
  · exact hw.started hid

theorem step_settled (hs : Step s l s') (h : ∃ log, Reflects s.db log) {id : TaskId}
    (hid : s.db.board.Settled id) :
    s'.db.board.verdict id = s.db.board.verdict id ∧
      s'.db.board.panel id = s.db.board.panel id := by
  rcases (step_wrote hs h).2 with heq | ⟨command, writer, reply, -, hw⟩
  · rw [heq]
    exact ⟨rfl, rfl⟩
  · exact hw.settled hid

theorem step_not_running (hs : Step s l s') (h : ∃ log, Reflects s.db log)
    (hl : Linked s.writer s.manager.pc) {id : TaskId} (hc : s.manager.pc.claimed ≠ some id)
    (hid : s.db.board.status id ≠ some .running) : s'.db.board.status id ≠ some .running := by
  rcases (step_wrote hs h).2 with heq | ⟨command, writer, reply, hq, hw⟩
  · rwa [heq]
  · rw [hq] at hl
    exact hw.not_running hid (hl.not_start hc)

/-! ## The recovery of the degraded mode -/

namespace CoordinatorPc

/-- Its recovery has committed. -/
def recovered : CoordinatorPc → Bool
  | .replied (some _) | .flush _ | .flushing _ | .retryFlush _ | .finalize _ | .sendFinalize _
  | .finalizing _ => true
  | .recover | .sending _ | .waiting | .replied none | .retryRecover => false

/-- What it has sent and the manager not yet received. -/
def posted : CoordinatorPc → List TaskManagerMessage
  | .finalizing recovery => [.finalizeDegraded recovery]
  | _ => []

end CoordinatorPc

/-- Only the reply to its recovery takes it past that point. -/
theorem CoordinatorPc.reply_recovered {pc : CoordinatorPc} {reply : Option Reply}
    (h : (pc.reply reply).recovered = true) :
    pc.recovered = true ∨ ∃ recovery, reply = some (.recovery recovery) := by
  by_cases hpc : pc = .waiting
  · subst hpc
    simp only [CoordinatorPc.reply] at h
    split at h
    · exact .inr ⟨_, rfl⟩
    · cases h
  · left
    cases pc <;> first | exact h | exact absurd rfl hpc

@[simp] theorem CoordinatorPc.reply_posted (pc : CoordinatorPc) (reply : Option Reply) :
    (pc.reply reply).posted = pc.posted := by
  cases pc <;> first | rfl | skip
  simp only [CoordinatorPc.reply]
  split <;> rfl

def TaskManagerMessage.isFinalize : TaskManagerMessage → Bool
  | .finalizeDegraded _ => true
  | _ => false

structure Recovery (coordinator : Option CoordinatorPc) (degraded : Bool)
    (mailbox : List TaskManagerMessage) (board : Board) : Prop where
  degraded : ∀ pc, coordinator = some pc → degraded = true
  posted : mailbox.filter (·.isFinalize) = (coordinator.map (·.posted)).getD []
  recovered : ∀ pc, coordinator = some pc → pc.recovered = true →
    ∀ id, board.status id ≠ some .running

namespace Recovery

variable {coordinator : Option CoordinatorPc} {degraded : Bool}
  {mailbox : List TaskManagerMessage} {board : Board}

theorem push (h : Recovery coordinator degraded mailbox board) {message : TaskManagerMessage}
    (hm : message.isFinalize = false) :
    Recovery coordinator degraded (mailbox ++ [message]) board := by
  refine ⟨h.degraded, ?_, h.recovered⟩
  rw [List.filter_append, h.posted]
  simp [hm]

theorem pop {mailbox' : List TaskManagerMessage} {message : TaskManagerMessage}
    (h : Recovery coordinator degraded mailbox' board) (hm : mailbox' = message :: mailbox)
    (hf : message.isFinalize = false) : Recovery coordinator degraded mailbox board := by
  refine ⟨h.degraded, ?_, h.recovered⟩
  rw [← h.posted, hm, List.filter_cons_of_neg (by simp [hf])]

/-- A coordinator that is at another point, with nothing sent at either. -/
theorem move (h : Recovery coordinator degraded mailbox board) {pc pc' : CoordinatorPc}
    (hc : coordinator = some pc) (hp : pc.posted = []) (hp' : pc'.posted = [])
    (hr : pc'.recovered = true → pc.recovered = true) :
    Recovery (some pc') degraded mailbox board := by
  refine ⟨fun _ _ => h.degraded pc hc, ?_, ?_⟩
  · rw [h.posted, hc, Option.map_some, Option.map_some, hp, hp']
  · rintro _ ⟨⟩ hrec
    exact h.recovered pc hc (hr hrec)

/-- The finalize message at the head is the coordinator's only one. -/
theorem head {mailbox' : List TaskManagerMessage} {recovery : RecoveryOutcome}
    (h : Recovery coordinator degraded mailbox' board)
    (hm : mailbox' = .finalizeDegraded recovery :: mailbox) :
    coordinator = some (.finalizing recovery) ∧ mailbox.filter (·.isFinalize) = [] := by
  have hp := h.posted
  rw [hm, List.filter_cons_of_pos (by rfl)] at hp
  cases hc : coordinator with
  | none => rw [hc] at hp; cases hp
  | some pc =>
    rw [hc] at hp
    simp only [Option.map_some, Option.getD_some] at hp
    unfold CoordinatorPc.posted at hp
    split at hp
    · simp only [List.cons.injEq, TaskManagerMessage.finalizeDegraded.injEq] at hp
      exact ⟨hp.1 ▸ rfl, hp.2⟩
    · cases hp

theorem stop {degraded' : Bool} (h : mailbox.filter (·.isFinalize) = []) :
    Recovery none degraded' mailbox board :=
  ⟨fun _ hc => (nomatch hc), h, fun _ hc => (nomatch hc)⟩

/-- Without the degraded mode there is no coordinator. -/
theorem absent (h : Recovery coordinator degraded mailbox board) (hd : degraded = false) :
    coordinator = none ∧ mailbox.filter (·.isFinalize) = [] := by
  have hc : coordinator = none := by
    cases hc : coordinator with
    | none => rfl
    | some pc => rw [h.degraded pc hc] at hd; cases hd
  refine ⟨hc, ?_⟩
  rw [h.posted, hc]
  rfl

end Recovery

theorem CoordinatorMove.posted {pc pc' : CoordinatorPc} (h : CoordinatorMove pc pc') :
    pc.posted = [] ∧ pc'.posted = [] := by
  cases h <;> exact ⟨rfl, rfl⟩

theorem CoordinatorMove.recovered_of {pc pc' : CoordinatorPc} (h : CoordinatorMove pc pc')
    (hr : pc'.recovered = true) : pc.recovered = true := by
  cases h <;> first | rfl | cases hr

/-- The points the degraded mode is entered from are not in it. -/
theorem Recovery.enter {m : Manager}
    (h : Recovery s.coordinator s.manager.degraded s.mailbox s.db.board)
    (hd : s.manager.degraded = false) (hm : m.degraded = true) :
    Recovery (if s.manager.degraded then s.coordinator else some .recover) m.degraded s.mailbox
      s.db.board := by
  rw [if_neg (by simp [hd])]
  refine ⟨fun _ _ => hm, (h.absent hd).2, ?_⟩
  rintro _ ⟨⟩ ⟨⟩

theorem recovery_step (hs : Step s l s') (hstore : ∃ log, Reflects s.db log)
    (hmode : Modes s.manager s.control) (hl : Linked s.writer s.manager.pc)
    (h : Recovery s.coordinator s.manager.degraded s.mailbox s.db.board) :
    Recovery s'.coordinator s'.manager.degraded s'.mailbox s'.db.board := by
  -- while there is a coordinator the manager claims nothing
  have keep : ∀ pc, s.coordinator = some pc → pc.recovered = true →
      ∀ id, s'.db.board.status id ≠ some .running := by
    intro pc hc hr id
    refine step_not_running hs hstore hl ?_ (h.recovered pc hc hr id)
    have hq := hmode.quiet (.inl (h.degraded pc hc))
    intro hcl
    unfold ManagerPc.claimed at hcl
    split at hcl
    · rename_i hpc
      rw [hpc] at hq
      cases hq
    · cases hcl
  cases hs with
  | wroteManager hw hx | wroteHandler hw hx => exact ⟨h.degraded, h.posted, keep⟩
  | @wroteCoordinator env repositoryId fails operation writer outcome db hw hx =>
    obtain ⟨-, hwrote⟩ := execute_wrote hstore hx
    cases hc : s.coordinator with
    | none =>
      refine Recovery.stop ?_
      rw [h.posted, hc]
      rfl
    | some pc =>
      refine ⟨fun _ _ => h.degraded pc hc, ?_, ?_⟩
      · show s.mailbox.filter _ = _
        rw [h.posted, hc, Option.map_some, Option.map_some, Option.map_some,
          CoordinatorPc.reply_posted]
      · rintro _ ⟨⟩ hrec id
        rcases CoordinatorPc.reply_recovered hrec with hrec | ⟨recovery, hrep⟩
        · exact keep pc hc hrec id
        · -- the reply is that of a recovery, so the command was one
          rw [hrep] at hwrote
          exact hwrote.recovered id
  | post hpc hlive hpost =>
    refine h.push ?_
    unfold HandlerPc.Posts at hpost
    split at hpost
    · subst hpost; rfl
    · subst hpost; rfl
    · cases hpost
  | reportedEvent | reportedEnd | strayed | quiesceSent => exact h.push rfl
  | notified hpc hm | cancelRejected hpc hm | cancelStarted hpc hm | appendRejected hpc hm
  | appendStarted hpc hm | finishIgnored hpc hm | finishDropped hpc hm | finishStarted hpc hm
  | quiesceRejected hpc hm | quiesceRefused hpc hm | quiesceStarted hpc hm => exact h.pop hm rfl
  | finalizeRejected hpc hm | finalized hpc hm => exact .stop (h.head hm).2
  | appendFailed hpc | finishFailed hpc =>
    exact h.enter (hmode.awake (by rw [hpc]; rfl)).1 rfl
  | coordinatorMoved hc hmove => exact h.move hc hmove.posted.1 hmove.posted.2 hmove.recovered_of
  | coordinatorStopped hc hw hf hq =>
    refine .stop ?_
    rw [h.posted, hc, Option.map_some, Option.getD_some]
    unfold CoordinatorPc.posted
    split
    · rename_i r
      exact absurd rfl (hf r)
    · rfl
  | recoverySent hc => exact h.move hc rfl rfl nofun
  | finalizeSent hc =>
    refine ⟨fun _ _ => h.degraded _ hc, ?_, ?_⟩
    · rw [List.filter_append, h.posted, hc]
      rfl
    · rintro _ ⟨⟩ -
      exact h.recovered _ hc rfl
  | _ => exact h

end CodingAgent.L4.App
