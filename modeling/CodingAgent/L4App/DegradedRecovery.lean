import CodingAgent.L4App.Attribution
import CodingAgent.L4App.Dispatcher

/-!
# Degraded recovery (`coding-agent-app/src/shutdown.rs:574-762`)

A write of the manager that fails takes the service into the degraded mode, and
a `DegradedCoordinator` out of it again: it repeats `recover_incomplete` until
one commits, repeats `flush_to` with its high watermark until the dispatcher
answers, and sends the manager a finalize message.

* `service`: the primary and the dispatcher over one store. The coordinator's
  flush is a call of the dispatcher, and ends with its answer.
* `Episode`: what the coordinator's program counter says of the recovery of
  this episode, and that its command is the only one in the queue.
* `degraded_protocol`: the result, for every step of every run.

Ghost fields: `phase` (how far the recovery is that this episode started) and
`running` (the tasks that were running when it began).
-/
namespace CodingAgent.L4.App
open CodingAgent.L1.Domain CodingAgent.L2.Store EventDispatcher

/-! ## The system -/

inductive RecoveryPhase where
  | entered
  /-- the coordinator has asked for its recovery -/
  | started
  | committed (recovery : RecoveryOutcome)
  deriving DecidableEq, Repr

structure Service where
  primary : Primary
  dispatcher : Dispatcher
  /-- the response channel of the coordinator's last flush -/
  flush : Nat
  phase : RecoveryPhase
  running : List TaskId

namespace Primary

/-- The step enters the degraded mode. -/
def enters (s p : Primary) : Bool := !s.manager.degraded && p.manager.degraded

/-- The coordinator's recovery has been sent. -/
def startsRecovery (s p : Primary) : Bool :=
  match s.coordinator, p.coordinator with
  | some (.sending _), some .waiting => true
  | _, _ => false

/-- The recovery of the coordinator that the writer commits. -/
def commitsRecovery (s : Primary) : Label → Option RecoveryOutcome
  | .write env repositoryId fails =>
    match s.writer with
    | ⟨operation, .coordinator⟩ :: _ =>
      match (operation.execute env repositoryId fails s.db).1.bind (·.reply?) with
      | some (.recovery recovery) => some recovery
      | _ => none
    | _ => none
  | _ => none

/-- The target of the `flush_to` that the coordinator calls.
mirrors crates/coding-agent-app/src/shutdown.rs:631-636,685-699 -/
def callsFlush (s p : Primary) : Option Nat :=
  match s.coordinator, p.coordinator with
  | some (.flush _), some (.flushing recovery) => some recovery.highWatermark
  | _, _ => none

def runningTasks (s : Primary) : List TaskId :=
  (s.db.tasks.filter fun row => row.status = .running).map (·.id)

end Primary

def RecoveryPhase.next (phase : RecoveryPhase) (s : Primary) (l : Label) (p : Primary) :
    RecoveryPhase :=
  if s.enters p then .entered
  else if s.startsRecovery p then .started
  else
    match s.commitsRecovery l with
    | some recovery => if phase = .started then .committed recovery else phase
    | none => phase

namespace Service

/-- A flush returns what the dispatcher has answered to it. -/
def flushReturns (s : Service) (p : Primary) : Bool :=
  match s.primary.coordinator, p.coordinator, s.dispatcher.answers s.flush with
  | some (.flushing _), some (.finalize _), answer => answer = some (.ok ())
  | some (.flushing _), some (.retryFlush _), some (.error _) => true
  | some (.flushing _), some (.retryFlush _), _ => false
  | _, _, _ => true

/-- The dispatcher reads the store of the primary. -/
def follow (s : Service) (p : Primary) : Dispatcher :=
  let d := { s.dispatcher with db := p.db }
  match s.primary.callsFlush p with
  | some target => d.flushTo target
  | none => d

def advance (s : Service) (l : Label) (p : Primary) : Service where
  primary := p
  dispatcher := s.follow p
  flush := if (s.primary.callsFlush p).isSome then s.dispatcher.targets.length else s.flush
  phase := s.phase.next s.primary l p
  running := if s.primary.enters p then p.runningTasks else s.running

/-- Only the primary writes, and its manager keeps a handle of the dispatcher. -/
def next (s : Service) : Label ⊕ DispatcherLabel → Option Service
  | .inl l =>
    (App.next s.primary l).bind fun p => if s.flushReturns p then some (s.advance l p) else none
  | .inr (.commit _) | .inr .dropHandles => none
  | .inr l => (s.dispatcher.next l).map fun dispatcher => { s with dispatcher }

def start (concurrency : Nat) (db : Db) (cursor : Nat) : Service where
  primary := .start concurrency db
  dispatcher := .spawn db cursor
  flush := 0
  phase := .entered
  running := []

end Service

/-- The primary and the dispatcher over a database. -/
def service (concurrency : Nat) (db : Db) : LTS Service (Label ⊕ DispatcherLabel) :=
  LTS.ofFn (fun s => ∃ cursor, latestEventCursor db = .ok (cursor, db) ∧
    s = .start concurrency db cursor) Service.next

/-! ## The dispatcher -/

/-- What a step of the dispatcher keeps: the store, what was sent and asked for
so far. -/
structure Advances (d d' : Dispatcher) : Prop where
  db : d'.db = d.db
  cursor : d.cursor ≤ d'.cursor
  targets : d.targets <+: d'.targets

namespace Advances

variable {d d' : Dispatcher}

theorem same (hdb : d'.db = d.db) (hcursor : d'.cursor = d.cursor)
    (htargets : d'.targets = d.targets) : Advances d d' :=
  ⟨hdb, Nat.le_of_eq hcursor.symm, htargets ▸ List.prefix_rfl⟩

theorem flushTo (d : Dispatcher) (target : Nat) : Advances d (d.flushTo target) := by
  simp only [Dispatcher.flushTo]
  split
  · exact ⟨rfl, Nat.le_refl _, List.prefix_append ..⟩
  · exact ⟨rfl, Nat.le_refl _, List.prefix_append ..⟩

theorem publish (d : Dispatcher) (event : TaskEvent) : Advances d (d.publish event) := by
  unfold Dispatcher.publish
  split
  · exact same rfl rfl rfl
  · rename_i hlt
    exact ⟨rfl, Nat.le_of_lt (Nat.not_le.1 hlt), List.prefix_rfl⟩

theorem target (h : Advances d d') {i target : Nat} (ht : d.targets[i]? = some target) :
    d'.targets[i]? = some target := by
  obtain ⟨more, heq⟩ := h.targets
  rw [← heq, List.getElem?_append_left (List.getElem?_eq_some_iff.1 ht).1]
  exact ht

end Advances

theorem recv_advances {d d' : Dispatcher} (hs : d.recv = some d') : Advances d d' := by
  unfold Dispatcher.recv at hs
  split at hs
  · dsimp only at hs
    split at hs
    · cases hs
      exact .same rfl rfl rfl
    · cases hs
      exact .same rfl rfl rfl
  · cases hs
    exact .same rfl rfl rfl
  · split at hs
    · cases hs
    · cases hs
      exact .same rfl rfl rfl

theorem dispatcher_advances {d d' : Dispatcher} {l : DispatcherLabel} (hl : ∀ call, l ≠ .commit call)
    (hs : d.next l = some d') : Advances d d' := by
  cases l with
  | commit call => exact absurd rfl (hl call)
  | wake =>
    simp only [Dispatcher.next] at hs
    split at hs
    · cases hs
      exact .same rfl rfl rfl
    · cases hs
  | flushTo target =>
    simp only [Dispatcher.next] at hs
    split at hs
    · cases hs
      exact .flushTo d target
    · cases hs
  | close =>
    simp only [Dispatcher.next] at hs
    split at hs
    · cases hs
      unfold Dispatcher.close
      split
      · exact .same rfl rfl rfl
      · exact .same rfl rfl rfl
    · cases hs
  | dropHandles =>
    cases hs
    exact .same rfl rfl rfl
  | recv =>
    simp only [Dispatcher.next] at hs
    split at hs
    · exact recv_advances hs
    · cases hs
  | notified | tick | readFails =>
    simp only [Dispatcher.next] at hs
    split at hs
    · cases hs
      exact .same rfl rfl rfl
    · cases hs
  | read =>
    simp only [Dispatcher.next] at hs
    split at hs
    · split at hs
      · cases hs
        exact .same rfl rfl rfl
      · cases hs
        exact .same rfl rfl rfl
    · cases hs
  | event =>
    simp only [Dispatcher.next] at hs
    split at hs
    · rename_i event rest highWatermark before hpc
      cases hs
      obtain ⟨hdb, hcursor, htargets⟩ :=
        Advances.publish { d with pc := .page rest highWatermark before } event
      exact ⟨hdb, hcursor, htargets⟩
    · cases hs
  | pageDone =>
    simp only [Dispatcher.next] at hs
    split at hs
    · split at hs
      · cases hs
        exact .same rfl rfl rfl
      · cases hs
        exact .same rfl rfl rfl
    · cases hs

/-! ## The coordinator's command -/

section
variable {s p : Primary} {l : Label}

/-- The coordinator has a command in the queue while it waits for one. -/
def Queued (writer : List WriteCommand) (coordinator : Option CoordinatorPc) : Prop :=
  (writer.filter fun c => c.origin = .coordinator).length =
    if coordinator = some .waiting then 1 else 0

namespace Queued

variable {writer : List WriteCommand} {coordinator coordinator' : Option CoordinatorPc}

/-- The coordinator is elsewhere, before and after. -/
theorem away (h : Queued writer coordinator) (hc : coordinator ≠ some .waiting)
    (hc' : coordinator' ≠ some .waiting) : Queued writer coordinator' := by
  unfold Queued at h ⊢
  rw [h, if_neg hc, if_neg hc']

theorem push (h : Queued writer coordinator) {command : WriteCommand}
    (ho : command.origin ≠ .coordinator) : Queued (writer ++ [command]) coordinator := by
  unfold Queued at h ⊢
  rw [List.filter_append, List.filter_cons_of_neg (by simpa using ho), List.filter_nil,
    List.append_nil, h]

theorem tail {command : WriteCommand} (h : Queued (command :: writer) coordinator)
    (ho : command.origin ≠ .coordinator) : Queued writer coordinator := by
  unfold Queued at h ⊢
  rwa [List.filter_cons_of_neg (by simpa using ho)] at h

/-- A command of the coordinator at the head is the one it waits for, and its
only one. -/
theorem head {operation : StoreWriterOperation}
    (h : Queued (⟨operation, .coordinator⟩ :: writer) coordinator) :
    coordinator = some .waiting ∧ (writer.filter fun c => c.origin = .coordinator) = [] := by
  unfold Queued at h
  rw [List.filter_cons_of_pos (by simp), List.length_cons] at h
  split at h
  · rename_i hc
    exact ⟨hc, List.length_eq_zero_iff.1 (by omega)⟩
  · omega

end Queued

theorem CoordinatorPc.reply_not_waiting (reply : Option Reply) :
    CoordinatorPc.waiting.reply reply ≠ .waiting := by
  intro h
  simp only [CoordinatorPc.reply] at h
  split at h <;> cases h

theorem CoordinatorMove.not_waiting {pc pc' : CoordinatorPc} (h : CoordinatorMove pc pc') :
    pc ≠ .waiting ∧ pc' ≠ .waiting := by
  cases h <;> exact ⟨nofun, nofun⟩

theorem queued_step (hs : Step s l p) (hmode : Modes s.manager s.control)
    (hrec : Recovery s.coordinator s.manager.degraded s.mailbox s.db.board)
    (h : Queued s.writer s.coordinator) : Queued p.writer p.coordinator := by
  cases hs with
  | submit hpc hlive hop => exact h.push nofun
  | sent hpc => exact h.push nofun
  | wroteManager hw hx | wroteHandler hw hx =>
    rw [hw] at h
    exact h.tail nofun
  | wroteCoordinator hw hx =>
    rw [hw] at h
    obtain ⟨hc, hnil⟩ := h.head
    unfold Queued
    rw [hnil, hc, if_neg]
    · rfl
    · simpa using CoordinatorPc.reply_not_waiting _
  | recoverySent hc =>
    unfold Queued at h ⊢
    rw [hc, if_neg nofun] at h
    rw [List.filter_append, List.length_append, h]
    rfl
  | finalizeSent hc => exact h.away (by rw [hc]; nofun) nofun
  | finalizeRejected hpc hm | finalized hpc hm =>
    exact h.away (by rw [(hrec.head hm).1]; nofun) nofun
  | coordinatorMoved hc hmove =>
    obtain ⟨hpc, hpc'⟩ := hmove.not_waiting
    exact h.away (by rw [hc]; simpa using hpc) (by simpa using hpc')
  | coordinatorStopped hc hw => exact h.away (by rw [hc]; simpa using hw) nofun
  | appendFailed hpc | finishFailed hpc =>
    -- only a manager that is not degraded writes, so there is no coordinator yet
    have hd := (hmode.awake (by rw [hpc]; rfl)).1
    refine h.away (by rw [(hrec.absent hd).1]; nofun) ?_
    change (if s.manager.degraded then s.coordinator else some .recover) ≠ some .waiting
    rw [if_neg (by simp [hd])]
    nofun
  | _ => exact h

/-- A recovery of the coordinator that commits is the one it waits for. -/
theorem commitsRecovery_some {recovery : RecoveryOutcome} (hs : next s l = some p)
    (h : Queued s.writer s.coordinator) (hc : s.commitsRecovery l = some recovery) :
    s.coordinator = some .waiting ∧ p.coordinator = some (.replied (some recovery)) ∧
      p.manager = s.manager := by
  unfold Primary.commitsRecovery at hc
  split at hc
  · rename_i env repositoryId fails
    split at hc
    · rename_i operation writer hw
      split at hc
      · rename_i recovery' hreply
        cases hc
        rw [hw] at h
        have hwait := h.head.1
        simp only [next, Primary.writeStep, hw, Option.some.injEq] at hs
        subst hs
        simp only [Primary.deliver, hwait, hreply]
        exact ⟨trivial, rfl, trivial⟩
      · cases hc
    · cases hc
  · cases hc

end

/-! ## The episode -/

/-- What the coordinator's place says of the recovery of its episode. -/
def CoordinatorPc.Agrees (phase : RecoveryPhase) (d : Dispatcher) (flush : Nat) :
    CoordinatorPc → Prop
  | .recover | .sending _ | .replied none | .retryRecover => True
  | .waiting => phase = .started
  | .replied (some recovery) | .flush recovery | .retryFlush recovery =>
    phase = .committed recovery
  | .flushing recovery =>
    phase = .committed recovery ∧ d.targets[flush]? = some recovery.highWatermark
  | .finalize recovery | .sendFinalize recovery | .finalizing recovery =>
    phase = .committed recovery ∧ recovery.highWatermark ≤ d.cursor

/-- The dispatcher goes on. -/
theorem CoordinatorPc.Agrees.advances {phase : RecoveryPhase} {d d' : Dispatcher} {flush : Nat}
    {pc : CoordinatorPc} (h : pc.Agrees phase d flush)
    (hcursor : d.cursor ≤ d'.cursor) (htargets : ∀ (i target : Nat),
      d.targets[i]? = some target → d'.targets[i]? = some target) : pc.Agrees phase d' flush := by
  cases pc with
  | flushing recovery => exact ⟨h.1, htargets _ _ h.2⟩
  | finalize recovery | sendFinalize recovery | finalizing recovery =>
    exact ⟨h.1, Nat.le_trans h.2 hcursor⟩
  | replied recovery? => cases recovery? <;> exact h
  | _ => exact h

def Episode (coordinator : Option CoordinatorPc) (phase : RecoveryPhase) (d : Dispatcher)
    (flush : Nat) : Prop :=
  ∀ pc, coordinator = some pc → pc.Agrees phase d flush

namespace Service

variable {s : Service} {p : Primary} {l : Label}

/-- A step that neither enters the degraded mode nor is one of the recovery. -/
theorem phase_kept (hd : p.manager.degraded = s.primary.manager.degraded)
    (hstart : s.primary.startsRecovery p = false) (hcommit : s.primary.commitsRecovery l = none) :
    (s.advance l p).phase = s.phase := by
  have henter : s.primary.enters p = false := by simp [Primary.enters, hd]
  simp [advance, RecoveryPhase.next, henter, hstart, hcommit]

theorem starts_of_waiting (h : s.primary.startsRecovery p = true) :
    p.coordinator = some .waiting := by
  unfold Primary.startsRecovery at h
  split at h
  · assumption
  · cases h

theorem startsRecovery_same (h : p.coordinator = s.primary.coordinator) :
    s.primary.startsRecovery p = false := by
  unfold Primary.startsRecovery
  rw [h]
  split
  · rename_i h₁ h₂
    rw [h₁] at h₂
    cases h₂
  · rfl

theorem callsFlush_same (h : p.coordinator = s.primary.coordinator) :
    s.primary.callsFlush p = none := by
  unfold Primary.callsFlush
  rw [h]
  split
  · rename_i h₁ h₂
    rw [h₁] at h₂
    cases h₂
  · rfl

theorem follow_advances (s : Service) (p : Primary) :
    (s.follow p).db = p.db ∧ s.dispatcher.cursor ≤ (s.follow p).cursor ∧
      ∀ i target : Nat, s.dispatcher.targets[i]? = some target →
        (s.follow p).targets[i]? = some target := by
  unfold follow
  split
  · rename_i target _
    have h := Advances.flushTo { s.dispatcher with db := p.db } target
    exact ⟨h.db, h.cursor, fun _ _ => h.target⟩
  · exact ⟨rfl, Nat.le_refl _, fun _ _ => id⟩

/-- The coordinator is called back or goes on to a place that says no more. -/
theorem agrees_kept {pc : CoordinatorPc} (h : pc.Agrees s.phase s.dispatcher s.flush)
    (hcall : s.primary.callsFlush p = none)
    (hphase : (s.advance l p).phase = s.phase) :
    pc.Agrees (s.advance l p).phase (s.advance l p).dispatcher (s.advance l p).flush := by
  have hflush : (s.advance l p).flush = s.flush := by simp [advance, hcall]
  rw [hphase, hflush]
  obtain ⟨-, hcursor, htargets⟩ := s.follow_advances p
  exact h.advances hcursor htargets

end Service

section
variable {s : Service} {p : Primary} {l : Label}

namespace Episode

/-- The coordinator stays where it is. -/
theorem same (h : Episode s.primary.coordinator s.phase s.dispatcher s.flush)
    (hcommit : s.primary.commitsRecovery l = none)
    (hc : p.coordinator = s.primary.coordinator)
    (hd : p.manager.degraded = s.primary.manager.degraded) :
    Episode p.coordinator (s.advance l p).phase (s.advance l p).dispatcher
      (s.advance l p).flush := by
  intro pc hpc
  exact s.agrees_kept (h pc (hc ▸ hpc)) (s.callsFlush_same hc)
    (s.phase_kept hd (s.startsRecovery_same hc) hcommit)

/-- The coordinator goes on, and asks for nothing. -/
theorem move (h : Episode s.primary.coordinator s.phase s.dispatcher s.flush)
    (hcommit : s.primary.commitsRecovery l = none)
    (hd : p.manager.degraded = s.primary.manager.degraded) {pc pc' : CoordinatorPc}
    (hc : s.primary.coordinator = some pc) (hc' : p.coordinator = some pc')
    (hw : pc' ≠ .waiting) (hcall : s.primary.callsFlush p = none)
    (hagrees : pc.Agrees s.phase s.dispatcher s.flush →
      pc'.Agrees s.phase s.dispatcher s.flush) :
    Episode p.coordinator (s.advance l p).phase (s.advance l p).dispatcher
      (s.advance l p).flush := by
  have hstart : s.primary.startsRecovery p = false := by
    refine eq_false_of_ne_true fun hstart => hw ?_
    exact Option.some.inj (hc'.symm.trans (s.starts_of_waiting hstart))
  intro x hx
  obtain rfl := Option.some.inj (hc'.symm.trans hx)
  exact s.agrees_kept (hagrees (h pc hc)) hcall (s.phase_kept hd hstart hcommit)

end Episode

/-- The commit of the recovery that the coordinator waits for. -/
theorem episode_committed {recovery : RecoveryOutcome}
    (hs : next s.primary l = some p) (hq : Queued s.primary.writer s.primary.coordinator)
    (h : Episode s.primary.coordinator s.phase s.dispatcher s.flush)
    (hcommit : s.primary.commitsRecovery l = some recovery) :
    Episode p.coordinator (s.advance l p).phase (s.advance l p).dispatcher
      (s.advance l p).flush := by
  obtain ⟨hwait, hreplied, hmanager⟩ := commitsRecovery_some hs hq hcommit
  have hstarted : s.phase = .started := h _ hwait
  have henter : s.primary.enters p = false := by simp [Primary.enters, hmanager]
  have hstart : s.primary.startsRecovery p = false := by
    refine eq_false_of_ne_true fun hstart => ?_
    rw [s.starts_of_waiting hstart] at hreplied
    cases hreplied
  intro pc hpc
  obtain rfl := Option.some.inj (hreplied.symm.trans hpc)
  show (s.advance l p).phase = .committed recovery
  simp [Service.advance, RecoveryPhase.next, henter, hstart, hcommit, hstarted]

/-- The moves of the coordinator between its recovery and its finalize. -/
theorem episode_moved (hret : s.flushReturns p = true) (ha : Answered s.dispatcher)
    (h : Episode s.primary.coordinator s.phase s.dispatcher s.flush)
    (hcommit : s.primary.commitsRecovery l = none)
    (hd : p.manager.degraded = s.primary.manager.degraded) {pc pc' : CoordinatorPc}
    (hc : s.primary.coordinator = some pc) (hc' : p.coordinator = some pc')
    (hm : CoordinatorMove pc pc') :
    Episode p.coordinator (s.advance l p).phase (s.advance l p).dispatcher
      (s.advance l p).flush := by
  have hmove := h.move hcommit hd hc hc' hm.not_waiting.2
  cases hm with
  | recover | refused | failed | retry =>
    exact hmove (by simp [Primary.callsFlush, hc]) fun _ => trivial
  | recovered | reflush | finalize =>
    exact hmove (by simp [Primary.callsFlush, hc]) fun hagrees => hagrees
  | unflushed => exact hmove (by simp [Primary.callsFlush, hc]) fun hagrees => hagrees.1
  | flushing recovery =>
    have hcall : s.primary.callsFlush p = some recovery.highWatermark := by
      simp [Primary.callsFlush, hc, hc']
    intro x hx
    obtain rfl := Option.some.inj (hc'.symm.trans hx)
    have hstart : s.primary.startsRecovery p = false := by simp [Primary.startsRecovery, hc]
    refine ⟨(s.phase_kept hd hstart hcommit).trans (h _ hc), ?_⟩
    simp only [Service.advance, Service.follow, hcall, Option.isSome_some, if_true,
      Dispatcher.flushTo]
    split <;> simp [Dispatcher.answer]
  | flushed recovery =>
    refine hmove (by simp [Primary.callsFlush, hc]) fun hagrees => ⟨hagrees.1, ?_⟩
    -- the dispatcher has answered, so it has reached the target
    simp only [Service.flushReturns, hc, hc', decide_eq_true_eq] at hret
    obtain ⟨target, htarget, hreached⟩ := ha.answers _ hret
    cases htarget.symm.trans hagrees.2
    exact hreached

theorem episode_step (hs : next s.primary l = some p) (hret : s.flushReturns p = true)
    (hmode : Modes s.primary.manager s.primary.control)
    (hq : Queued s.primary.writer s.primary.coordinator) (ha : Answered s.dispatcher)
    (h : Episode s.primary.coordinator s.phase s.dispatcher s.flush) :
    Episode p.coordinator (s.advance l p).phase (s.advance l p).dispatcher
      (s.advance l p).flush := by
  cases hcommit : s.primary.commitsRecovery l with
  | some recovery => exact episode_committed hs hq h hcommit
  | none =>
    have hstep := step_of_next hs
    clear hs
    cases hstep with
    | @wroteCoordinator env repositoryId fails operation writer outcome db hw hx =>
      rw [hw] at hq
      intro pc hpc
      rw [hq.head.1] at hpc
      cases hpc
      simp only [Primary.commitsRecovery, hw, hx] at hcommit
      simp only [CoordinatorPc.reply]
      split
      · rename_i hreply
        rw [hreply] at hcommit
        cases hcommit
      · trivial
    | appendFailed hpc | finishFailed hpc =>
      have hd := (hmode.awake (by rw [hpc]; rfl)).1
      intro pc (hpc : (if s.primary.manager.degraded then _ else some CoordinatorPc.recover) = _)
      rw [if_neg (by simp [hd])] at hpc
      cases hpc
      trivial
    | coordinatorMoved hc hm => exact episode_moved hret ha h hcommit rfl hc rfl hm
    | recoverySent hc =>
      intro pc hpc
      cases hpc
      simp [CoordinatorPc.Agrees, Service.advance, RecoveryPhase.next, Primary.enters,
        Primary.startsRecovery, hc]
    | finalizeSent hc =>
      exact h.move hcommit rfl hc rfl (by simp) (by simp [Primary.callsFlush, hc])
        fun hagrees => hagrees
    | coordinatorStopped | finalizeRejected | finalized => exact fun pc hpc => by cases hpc
    | _ => exact h.same hcommit rfl rfl

end

/-! ## While the degraded mode is on -/

section
variable {s p : Primary} {l : Label}

/-- What a step may do while the manager is degraded. -/
structure Halted (s p : Primary) : Prop where
  unclaimed : s.manager.pc.claimed = none ∧ p.manager.pc.claimed = none
  /-- no task gets running -/
  started : ∀ id, p.db.board.status id = some .running → s.db.board.status id = some .running
  spawned : ∀ id, s.runners id = none → p.runners id = none
  accepted : p.accepted = s.accepted
  refused : ∃ replies, p.cancelReplies = s.cancelReplies ++ replies ∧
    ∀ reply ∈ replies, ∃ error, reply.2 = .error error
  /-- the manager's only writes are recoveries of the shutdown barrier -/
  commands : ∀ command ∈ s.writer, command.origin = .manager →
    ∃ now, command.operation = .task (.recoverIncomplete now shutdownFailure)
  panel : p.db.board.panel = s.db.board.panel
  verdict : ∀ id, p.db.board.verdict id = s.db.board.verdict id ∨
    (s.db.board.verdict id = none ∧ p.db.board.verdict id = some ⟨.queued, none⟩) ∨
    ∃ failure, p.db.board.verdict id = some ⟨.interrupted, some failure⟩

theorem quiet_claimed {pc : ManagerPc} (h : pc.quiet = true) : pc.claimed = none := by
  unfold ManagerPc.quiet at h
  split at h <;> first | rfl | cases h

theorem quiet_answering {pc : ManagerPc} (h : pc.quiet = true) : pc.answering = false := by
  unfold ManagerPc.quiet at h
  split at h <;> first | rfl | cases h

theorem quiet_waiting {job : ManagerWrite} {stage : WriteStage}
    (h : (ManagerPc.write job stage).quiet = true) : ∃ now, job = .quiesce now := by
  cases job with
  | quiesce now => exact ⟨now, rfl⟩
  | _ => cases h

theorem Linked.quiet {writer : List WriteCommand} {pc : ManagerPc} (h : Linked writer pc)
    (hq : pc.quiet = true) {command : WriteCommand} (hmem : command ∈ writer)
    (ho : command.origin = .manager) :
    ∃ now, command.operation = .task (.recoverIncomplete now shutdownFailure) := by
  have hin : command ∈ pc.inFlight := h.manager ▸ List.mem_filter.2 ⟨hmem, by simpa using ho⟩
  unfold ManagerPc.inFlight at hin
  split at hin
  · obtain ⟨now, rfl⟩ := quiet_waiting hq
    exact ⟨now, by rw [List.mem_singleton.1 hin]; rfl⟩
  · cases hin

/-- Only a claim spawns a runner. -/
theorem quiet_runners (hs : Step s l p) (hq : s.manager.pc.quiet = true) {id : TaskId}
    (hnone : s.runners id = none) : p.runners id = none := by
  have kept : ((p.runners id).isSome → (s.runners id).isSome) → p.runners id = none := by
    intro h
    cases hp : p.runners id with
    | none => rfl
    | some runner =>
      have hsome := h (by rw [hp]; rfl)
      rw [hnone] at hsome
      cases hsome
  cases hs with
  | claimSpawned hpc =>
    rw [hpc] at hq
    cases hq
  | appendRejected | appended | appendFailed => exact kept (replyAppend_isSome id)
  | acted hr | reportedEvent hr | reportedEnd hr => exact kept (put_some_isSome hr id)
  | _ => exact hnone

theorem quiet_accepted (hs : Step s l p) (hq : s.manager.pc.quiet = true) :
    p.accepted = s.accepted := by
  cases hs with
  | cancelAccepted ht =>
    have := cancelTarget_answering ht
    rw [quiet_answering hq] at this
    cases this
  | _ => rfl

theorem quiet_replies (hs : Step s l p) (hq : s.manager.pc.quiet = true) :
    ∃ replies, p.cancelReplies = s.cancelReplies ++ replies ∧
      ∀ reply ∈ replies, ∃ error, reply.2 = .error error := by
  cases hs with
  | @cancelRejected now taskId handler mailbox error hpc hm he =>
    refine ⟨[(taskId, .error error)], rfl, fun reply hmem => ⟨error, ?_⟩⟩
    rw [List.mem_singleton.1 hmem]
  | cancelAnswered hc =>
    rw [quiet_answering hq] at hc
    cases hc
  | _ => exact ⟨[], (List.append_nil _).symm, List.forall_mem_nil _⟩

theorem quiet_panel (hs : Step s l p) (hstore : ∃ log, Reflects s.db log)
    (hl : Linked s.writer s.manager.pc) (hq : s.manager.pc.quiet = true) :
    p.db.board.panel = s.db.board.panel := by
  rcases (step_wrote hs hstore).2 with heq | ⟨command, writer, reply, hw, hwrote⟩
  · rw [heq]
  · refine hwrote.panel fun id payload hop => ?_
    have hmem : command ∈ s.writer := hw ▸ List.mem_cons_self
    by_cases ho : command.origin = .manager
    · obtain ⟨now, hrec⟩ := hl.quiet hq hmem ho
      rw [hop] at hrec
      cases hrec
    · rw [hw] at hl
      exact hl.panel_of_other ho id payload hop

theorem quiet_verdict (hs : Step s l p) (hstore : ∃ log, Reflects s.db log)
    (hl : Linked s.writer s.manager.pc) (hq : s.manager.pc.quiet = true) (id : TaskId) :
    p.db.board.verdict id = s.db.board.verdict id ∨
      (s.db.board.verdict id = none ∧ p.db.board.verdict id = some ⟨.queued, none⟩) ∨
      ∃ failure, p.db.board.verdict id = some ⟨.interrupted, some failure⟩ := by
  rcases step_verdict hs hstore hl id with heq | ⟨v, hv, hchanged⟩
  · exact .inl heq
  · right
    cases hchanged with
    | created hnone => exact .inl ⟨hnone, hv⟩
    | recovered hw => exact .inr ⟨_, hv⟩
    | claimed _ hpc | cancelled hpc | finished hpc =>
      rw [hpc] at hq
      cases hq

/-- A step that ends the degraded mode is that of a finalize message. -/
structure Finalizes (s p : Primary) : Prop where
  message : ∃ recovery mailbox, s.mailbox = .finalizeDegraded recovery :: mailbox
  degraded : s.manager.degraded = true
  db : p.db = s.db
  turn : p.manager.pc = .turnEnd

theorem finalizes_of_left (hs : Step s l p) (hd : s.manager.degraded = true)
    (hd' : p.manager.degraded = false) : Finalizes s p := by
  cases hs with
  | finalized hpc hm => exact ⟨⟨_, _, hm⟩, hd, rfl, rfl⟩
  | appendFailed | finishFailed => cases hd'
  | _ => exact absurd (hd'.symm.trans hd) Bool.false_ne_true

theorem quiescing_step (hs : Step s l p) (h : s.service.state = .quiescing) :
    p.service.state = .quiescing := by
  have hafter : ∀ next, (s.service.after next).state = .quiescing := fun next => by
    rw [ServiceStateSnapshot.after_state, if_pos h]
  have hbegin : s.beginQuiescing.service.state = .quiescing := by
    simp only [Primary.beginQuiescing]
    split
    · exact h
    · exact hafter _
  cases hs with
  | finalized hpc hm hf hd hset =>
    rw [ServiceStateSnapshot.set, if_neg (by rw [h]; nofun), if_pos h] at hset
    cases hset
  | requestQuit | shutdownStarted | panicked => exact hbegin
  | quiesceRefused | quiesceStarted => exact hafter _
  | appendFailed | finishFailed =>
    change (if s.manager.degraded then s.service else s.service.after .storeDegraded).state = _
    split
    · exact h
    · exact hafter _
  | _ => exact h

theorem finalizes_of_ready (hs : Step s l p) (hne : s.service.state ≠ .ready)
    (hr : p.service.state = .ready) : Finalizes s p := by
  have hafter : ∀ next, next ≠ .ready → (s.service.after next).state ≠ .ready := fun next hnext => by
    rw [ServiceStateSnapshot.after_state]
    split
    · nofun
    · exact hnext
  have hbegin : s.beginQuiescing.service.state ≠ .ready := by
    simp only [Primary.beginQuiescing]
    split
    · exact hne
    · exact hafter _ nofun
  cases hs with
  | finalized hpc hm hf hd => exact ⟨⟨_, _, hm⟩, hd, rfl, rfl⟩
  | requestQuit | shutdownStarted | panicked => exact absurd hr hbegin
  | quiesceRefused | quiesceStarted => exact absurd hr (hafter _ nofun)
  | appendFailed | finishFailed =>
    change (if s.manager.degraded then s.service else s.service.after .storeDegraded).state = _ at hr
    split at hr
    · exact absurd hr hne
    · exact absurd hr (hafter _ nofun)
  | _ => exact absurd hr hne

theorem halted_step (hs : Step s l p) (hstore : ∃ log, Reflects s.db log)
    (hl : Linked s.writer s.manager.pc) (hmode : Modes s.manager s.control)
    (hmode' : Modes p.manager p.control) (hd : s.manager.degraded = true) : Halted s p := by
  have hq := hmode.quiet (.inl hd)
  have hclaimed := quiet_claimed hq
  refine ⟨⟨hclaimed, ?_⟩, fun id hrun => ?_, fun id => quiet_runners hs hq, quiet_accepted hs hq,
    quiet_replies hs hq, fun command => hl.quiet hq, quiet_panel hs hstore hl hq,
    quiet_verdict hs hstore hl hq⟩
  · cases hd' : p.manager.degraded with
    | true => exact quiet_claimed (hmode'.quiet (.inl hd'))
    | false => rw [(finalizes_of_left hs hd hd').turn]; rfl
  · by_contra hnot
    exact step_not_running hs hstore hl (by rw [hclaimed]; nofun) hnot hrun

end

/-! ## Together -/

structure Recovering (concurrency : Nat) (s : Service) : Prop where
  primary : Sound concurrency s.primary
  store : ∃ log, EventDispatcher.Sound log s.dispatcher
  db : s.dispatcher.db = s.primary.db
  answered : Answered s.dispatcher
  queued : Queued s.primary.writer s.primary.coordinator
  episode : Episode s.primary.coordinator s.phase s.dispatcher s.flush
  running : ∀ id ∈ s.running, s.primary.db.board.Started id

section
variable {s s' : Service} {concurrency : Nat}

theorem Service.next_inl {l : Label} (hs : s.next (.inl l) = some s') :
    ∃ p, App.next s.primary l = some p ∧ s.flushReturns p = true ∧ s' = s.advance l p := by
  obtain ⟨p, hp, hret⟩ := Option.bind_eq_some_iff.1 hs
  split at hret
  · rename_i hok
    cases hret
    exact ⟨p, hp, hok, rfl⟩
  · cases hret

theorem Service.next_inr {l : DispatcherLabel} (hs : s.next (.inr l) = some s') :
    ∃ d, s.dispatcher.next l = some d ∧ (∀ call, l ≠ .commit call) ∧
      s' = { s with dispatcher := d } := by
  have keep : ∀ {l'}, l = l' → (∀ call, l' ≠ .commit call) →
      ((s.dispatcher.next l').map fun dispatcher => { s with dispatcher }) = some s' →
      ∃ d, s.dispatcher.next l = some d ∧ (∀ call, l ≠ .commit call) ∧
        s' = { s with dispatcher := d } := by
    rintro l' rfl hl hmap
    obtain ⟨d, hd, rfl⟩ := Option.map_eq_some_iff.1 hmap
    exact ⟨d, hd, hl, rfl⟩
  cases l with
  | commit call => cases hs
  | dropHandles => cases hs
  | _ => exact keep rfl (fun _ he => by cases he) hs

theorem recovering_advance {l : Label} {p : Primary} (hs : next s.primary l = some p)
    (hret : s.flushReturns p = true) (h : Recovering concurrency s) :
    Recovering concurrency (s.advance l p) := by
  have hstep := step_of_next hs
  obtain ⟨log, hlog⟩ := h.store
  have hreflects : Reflects s.primary.db log := h.db ▸ hlog.reflects
  obtain ⟨new, hgrown⟩ := step_grows hstep hreflects
  refine ⟨sound_step hstep h.primary, ⟨log ++ new, ?_⟩, (s.follow_advances p).1, ?_,
    queued_step hstep h.primary.modes h.primary.recovery h.queued,
    episode_step hs hret h.primary.modes h.queued h.answered h.episode, fun id hid => ?_⟩
  · have hfollow := hlog.commit hgrown
    simp only [Service.advance, Service.follow]
    split
    · simp only [Dispatcher.flushTo]
      split
      · exact hfollow.away rfl rfl rfl rfl (.inl rfl)
      · exact hfollow.away rfl rfl rfl rfl (.inl rfl)
    · exact hfollow
  · have hfollow : Answered { s.dispatcher with db := p.db } :=
      h.answered.mono (fun _ _ hmem => hmem) (fun w hw => hw) rfl (fun i hi => hi) (Nat.le_refl _)
    simp only [Service.advance, Service.follow]
    split
    · exact hfollow.flushTo _
    · exact hfollow
  · simp only [Service.advance] at hid ⊢
    split at hid
    · obtain ⟨row, hrow, rfl⟩ := List.mem_map.1 hid
      obtain ⟨hrow, hrun⟩ := List.mem_filter.1 hrow
      exact ⟨.running, (board_row hgrown hrow).trans (by simpa using hrun), by simp⟩
    · exact step_started hstep h.primary.store (h.running id hid)

theorem recovering_dispatcher {d : Dispatcher} {l : DispatcherLabel}
    (hs : s.dispatcher.next l = some d) (hl : ∀ call, l ≠ .commit call)
    (h : Recovering concurrency s) : Recovering concurrency { s with dispatcher := d } := by
  have hadv := dispatcher_advances hl hs
  obtain ⟨log, hlog⟩ := h.store
  obtain ⟨new, hnew⟩ := EventDispatcher.sound_step hlog hs
  exact { h with
    store := ⟨_, hnew⟩
    db := hadv.db.trans h.db
    answered := answered_step h.answered hs
    episode := fun pc hpc => (h.episode pc hpc).advances hadv.cursor fun _ _ => hadv.target }

theorem inductive_recovering {db : Db} (h : Recovered db) :
    (service concurrency db).Inductive (Recovering concurrency) where
  init := by
    rintro s ⟨cursor, -, rfl⟩
    obtain ⟨log, hlog⟩ := h.reflects
    exact ⟨sound_start h, ⟨log, sound_spawn hlog cursor⟩, rfl, answered_spawn db cursor, rfl,
      fun pc hpc => (by cases hpc), fun id hid => (by cases hid)⟩
  step := by
    intro s l s' hs hstep
    cases l with
    | inl l =>
      obtain ⟨p, hp, hret, rfl⟩ := Service.next_inl hstep
      exact recovering_advance hp hret hs
    | inr l =>
      obtain ⟨d, hd, hl, rfl⟩ := Service.next_inr hstep
      exact recovering_dispatcher hd hl hs

/-! ## The protocol -/

/-- What has happened when the service becomes ready again. -/
structure Restored (s : Service) (p : Primary) : Prop where
  degraded : s.primary.manager.degraded = true
  /-- the recovery this episode has started is committed and published -/
  published : ∃ recovery, s.phase = .committed recovery ∧
    recovery.highWatermark ≤ s.dispatcher.cursor ∧
    ∀ row ∈ p.db.events, s.dispatcher.spawnCursor < row.id → row.id ≤ recovery.highWatermark →
      row ∈ s.dispatcher.broadcast.map EventRow.ofEvent
  settled : ∀ id ∈ s.running, p.db.board.Settled id

/-- What every step of the service respects. -/
structure DegradedProtocol (s : Service) (p : Primary) : Prop where
  /-- a coordinator belongs to the degraded mode -/
  coordinated : s.primary.coordinator ≠ none → s.primary.manager.degraded = true
  /-- a new one is spawned only where there is none -/
  spawned : s.primary.enters p = true →
    s.primary.coordinator = none ∧ p.coordinator = some .recover
  single : s.primary.coordinator = none → p.coordinator ≠ none → s.primary.enters p = true
  /-- it ends with its finalize message or because of the shutdown -/
  ended : s.primary.coordinator ≠ none → p.coordinator = none →
    s.primary.service.state = .quiescing ∨ ∃ recovery,
      s.primary.coordinator = some (.finalizing recovery)
  halted : s.primary.manager.degraded = true → Halted s.primary p
  left : s.primary.manager.degraded = true → p.manager.degraded = false → Restored s p
  ready : s.primary.service.state ≠ .ready → p.service.state = .ready → Restored s p
  quiescing : s.primary.service.state = .quiescing → p.service.state = .quiescing

theorem Recovering.restored {p : Primary} (h : Recovering concurrency s)
    (hfin : Finalizes s.primary p) : Restored s p := by
  obtain ⟨recovery, mailbox, hm⟩ := hfin.message
  have hc := (h.primary.recovery.head hm).1
  obtain ⟨hphase, hcursor⟩ := h.episode _ hc
  obtain ⟨log, hlog⟩ := h.store
  refine ⟨hfin.degraded, ⟨recovery, hphase, hcursor, fun row hrow hlt hle => ?_⟩, fun id hid => ?_⟩
  · rw [hlog.sent_eq, h.db]
    rw [hfin.db] at hrow
    exact List.mem_filter.2 ⟨hrow, decide_eq_true ⟨hlt, Nat.le_trans hle hcursor⟩⟩
  · rw [hfin.db]
    exact (h.running id hid).settled (h.primary.recovery.recovered _ hc rfl id)

/-- Where a coordinator comes from and goes to. -/
theorem coordinator_step {s p : Primary} {l : Label} (hs : Step s l p)
    (hmode : Modes s.manager s.control)
    (hrec : Recovery s.coordinator s.manager.degraded s.mailbox s.db.board) :
    (s.enters p = true → s.coordinator = none ∧ p.coordinator = some .recover) ∧
    (s.coordinator = none → p.coordinator ≠ none → s.enters p = true) ∧
    (s.coordinator ≠ none → p.coordinator = none → s.service.state = .quiescing ∨
      ∃ recovery, s.coordinator = some (.finalizing recovery)) := by
  -- a step that keeps the mode, and whether there is a coordinator
  have same : p.manager.degraded = s.manager.degraded →
      (s.coordinator = none ↔ p.coordinator = none) →
      (s.enters p = true → s.coordinator = none ∧ p.coordinator = some .recover) ∧
      (s.coordinator = none → p.coordinator ≠ none → s.enters p = true) ∧
      (s.coordinator ≠ none → p.coordinator = none → s.service.state = .quiescing ∨
        ∃ recovery, s.coordinator = some (.finalizing recovery)) := by
    intro hd hiff
    refine ⟨fun henter => ?_, fun hn hs => absurd (hiff.1 hn) hs, fun hs hn => absurd (hiff.2 hn) hs⟩
    simp [Primary.enters, hd] at henter
  cases hs with
  | appendFailed hpc | finishFailed hpc =>
    have hd := (hmode.awake (by rw [hpc]; rfl)).1
    refine ⟨fun _ => ⟨(hrec.absent hd).1, ?_⟩, fun _ _ => ?_,
      fun hsome => absurd (hrec.absent hd).1 hsome⟩
    · change (if s.manager.degraded then s.coordinator else some .recover) = _
      rw [if_neg (by simp [hd])]
    · change (!s.manager.degraded && true) = true
      rw [hd]
      rfl
  | finalizeRejected hpc hm =>
    refine ⟨fun henter => ?_, fun hn => ?_, fun _ _ => .inr ⟨_, (hrec.head hm).1⟩⟩
    · change (!s.manager.degraded && s.manager.degraded) = true at henter
      simp at henter
    · rw [(hrec.head hm).1] at hn
      cases hn
  | finalized hpc hm =>
    refine ⟨fun henter => ?_, fun hn => ?_, fun _ _ => .inr ⟨_, (hrec.head hm).1⟩⟩
    · change (!s.manager.degraded && false) = true at henter
      simp at henter
    · rw [(hrec.head hm).1] at hn
      cases hn
  | coordinatorStopped hc hw hf hq =>
    refine ⟨fun henter => ?_, fun hn => ?_, fun _ _ => .inl hq⟩
    · change (!s.manager.degraded && s.manager.degraded) = true at henter
      simp at henter
    · rw [hc] at hn
      cases hn
  | wroteCoordinator hw hx => exact same rfl (by simp)
  | coordinatorMoved hc | recoverySent hc | finalizeSent hc => exact same rfl (by simp [hc])
  | _ => exact same rfl Iff.rfl

theorem degradedProtocol_step {l : Label} {p : Primary} (h : Recovering concurrency s)
    (hs : next s.primary l = some p) : DegradedProtocol s p := by
  have hstep := step_of_next hs
  have hsound := h.primary
  have hmode' := modes_step hstep hsound.modes
  obtain ⟨hspawned, hsingle, hended⟩ := coordinator_step hstep hsound.modes hsound.recovery
  refine ⟨fun hsome => ?_, hspawned, hsingle, hended,
    halted_step hstep hsound.store hsound.linked hsound.modes hmode',
    fun hd hd' => h.restored (finalizes_of_left hstep hd hd'),
    fun hne hr => h.restored (finalizes_of_ready hstep hne hr), quiescing_step hstep⟩
  obtain ⟨pc, hpc⟩ := Option.ne_none_iff_exists'.1 hsome
  exact hsound.recovery.degraded pc hpc

/-- The dispatcher touches nothing of the primary. -/
theorem degradedProtocol_same (h : Recovering concurrency s) : DegradedProtocol s s.primary := by
  have henter : s.primary.enters s.primary = false := by simp [Primary.enters]
  refine ⟨fun hsome => ?_, fun he => ?_, fun hn hs => absurd hn hs, fun hs hn => absurd hn hs,
    fun hd => ?_, fun hd hd' => ?_, fun hne hr => absurd hr hne, id⟩
  · obtain ⟨pc, hpc⟩ := Option.ne_none_iff_exists'.1 hsome
    exact h.primary.recovery.degraded pc hpc
  · rw [henter] at he
    cases he
  · have hq := h.primary.modes.quiet (.inl hd)
    exact ⟨⟨quiet_claimed hq, quiet_claimed hq⟩, fun _ => id, fun _ => id, rfl,
      ⟨[], (List.append_nil _).symm, List.forall_mem_nil _⟩, fun command => h.primary.linked.quiet hq,
      rfl, fun _ => .inl rfl⟩
  · rw [hd] at hd'
    cases hd'

theorem quiescing_run {db : Db} {ls : List (Label ⊕ DispatcherLabel)}
    (hrun : (service concurrency db).Run s ls s') :
    s.primary.service.state = .quiescing → s'.primary.service.state = .quiescing := by
  refine LTS.Run.preserves (P := fun s => s.primary.service.state = .quiescing) ?_ hrun
  intro s l s' hq hstep
  cases l with
  | inl l =>
    obtain ⟨p, hp, -, rfl⟩ := Service.next_inl hstep
    exact quiescing_step (step_of_next hp) hq
  | inr l =>
    obtain ⟨d, -, -, rfl⟩ := Service.next_inr hstep
    exact hq

/-- **Degraded recovery.** Over any failing and succeeding recoveries and
flushes, runner messages, requests and quits: every step of a reachable service
respects the protocol, and a quiescing service stays so. -/
theorem degraded_protocol {db : Db} (h : Recovered db)
    (hr : (service concurrency db).Reachable s) :
    (∀ l s', (service concurrency db).step s l s' → DegradedProtocol s s'.primary) ∧
    ∀ ls s', (service concurrency db).Run s ls s' →
      s.primary.service.state = .quiescing → s'.primary.service.state = .quiescing := by
  have hs := (inductive_recovering h).reachable s hr
  refine ⟨fun l s' hstep => ?_, fun ls s' => quiescing_run⟩
  cases l with
  | inl l =>
    obtain ⟨p, hp, -, rfl⟩ := Service.next_inl hstep
    exact degradedProtocol_step hs hp
  | inr l =>
    obtain ⟨d, -, -, rfl⟩ := Service.next_inr hstep
    exact degradedProtocol_same hs

end

/-- An append fails, and so does the first recovery; the second commits, its
event is published and the coordinator has sent its finalize message. -/
def sampleRecovery : List (Label ⊕ DispatcherLabel) :=
  let failing := Label.write ⟨0, sampleTask, ⟨8⟩, fun _ => 0⟩ ⟨1⟩ true
  let coordinator := Label.coordinator (.ok .epoch) true
  sampleClaim.map .inl ++
    [.inl (.runner sampleTask (.append samplePlan)), .inl (.report sampleTask),
     .inl (.receive (.ok .epoch)), .inl .send, .inl failing, .inl .resume, .inl coordinator,
     .inl coordinator, .inl failing, .inl coordinator, .inl coordinator, .inl coordinator,
     .inl coordinator, .inl sampleWrite, .inl coordinator, .inl coordinator, .inr .recv, .inr .read,
     .inr .event, .inr .event, .inr .event, .inl coordinator, .inl coordinator, .inl coordinator,
     .inl .endTurn]

theorem degraded_protocol_sample : ∃ s p, (service 4 sampleDb).Reachable s ∧
    s.primary.service.state = .storeDegraded ∧ s.running = [sampleTask] ∧
    next s.primary (.receive (.ok .epoch)) = some p ∧ p.service.state = .ready ∧ Restored s p := by
  have hrun : ((LTS.exec Service.next (.start 4 sampleDb 0) sampleRecovery).bind fun s =>
      (s.next (.inl (.receive (.ok .epoch)))).map fun s' => (s.primary.service.state, s.running,
        s'.primary.service.state)) = some (.storeDegraded, [sampleTask], .ready) := by
    decide +kernel
  obtain ⟨s, hs, hrest⟩ := Option.bind_eq_some_iff.1 hrun
  obtain ⟨s', hnext, heq⟩ := Option.map_eq_some_iff.1 hrest
  obtain ⟨hdegraded, heq⟩ := Prod.mk.inj heq
  obtain ⟨hrunning, hready⟩ := Prod.mk.inj heq
  have hr : (service 4 sampleDb).Reachable s := LTS.reachable_of_exec ⟨0, rfl, rfl⟩ hs
  have hstep := (degraded_protocol recovered_sampleDb hr).1 _ _ hnext
  obtain ⟨p, hp, -, rfl⟩ := Service.next_inl hnext
  exact ⟨s, p, hr, hdegraded, hrunning, hp, hready, hstep.ready (by rw [hdegraded]; nofun) hready⟩

end CodingAgent.L4.App
