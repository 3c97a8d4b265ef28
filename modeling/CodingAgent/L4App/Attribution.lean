import CodingAgent.L4App.Coverage

/-!
# Who made a task what it is (`coding-agent-app/src/task_manager.rs`)

For runners that await their appends and return `Cancelled` only when their
token is cancelled.

* `Changed`: the only commands that change the verdict of a row.
* `Channels`: the event a runner waits for is its only one on the way, and a
  finish on the way is what its task has ended with.
* `Tokens`: a token is cancelled by an accepted cancel, by a freeze, or by a
  degraded mode whose recovery leaves no running row. So a `Cancelled` result
  that the manager persists for a running row is an accepted cancel.
* `Stored`: the panel events are the appends that returned `Ok`, and at most
  the committed one whose reply is on the way.
* `attributed`: the result.
-/
namespace CodingAgent.L4.App
open CodingAgent.L1.Domain CodingAgent.L2.Store

variable {s s' : Primary} {l : Label}

/-! ## What changes a verdict -/

inductive Changed (s : Primary) (id : TaskId) : Verdict → Prop
  | created : s.db.board.verdict id = none → Changed s id ⟨.queued, none⟩
  | claimed {task : Task} {repository : Repository} {rest : List Task}
    {repositories : List Repository} : task.id = id →
    s.manager.pc = .write (.claim task repository rest repositories) .waiting →
    Changed s id ⟨.running, none⟩
  | cancelled {handler : Nat} : s.manager.pc = .write (.cancel id handler) .waiting →
    Changed s id ⟨.cancelled, none⟩
  | finished {outcome : RunnerOutcome} : s.manager.pc = .write (.finish id outcome) .waiting →
    s.db.board.status id = some .running →
    Changed s id ⟨outcome.transition.next, outcome.transition.failure⟩
  | recovered {now : UtcTimestamp} {failure : TaskFailure} {origin : Origin}
    {writer : List WriteCommand} :
    s.writer = ⟨.task (.recoverIncomplete now failure), origin⟩ :: writer →
    Changed s id ⟨.interrupted, some failure⟩

/-- A transition in the queue is the one the manager waits for. -/
theorem Linked.transition {id : TaskId} {expected : TaskStatus} {transition : TaskTransition}
    {origin : Origin} {writer : List WriteCommand} {pc : ManagerPc}
    (h : Linked (⟨.task (.transitionWithEvent id expected transition), origin⟩ :: writer) pc) :
    ∃ job, pc = .write job .waiting ∧ job.operation = .transitionWithEvent id expected transition := by
  cases origin with
  | manager =>
    obtain ⟨job, hpc, hop, -⟩ := h.head
    exact ⟨job, hpc, (StoreWriterOperation.task.inj hop).symm⟩
  | coordinator =>
    obtain ⟨now, hop⟩ := h.coordinator _ List.mem_cons_self rfl
    cases hop
  | handler n => exact (h.handler _ List.mem_cons_self n rfl).elim

theorem step_verdict (hs : Step s l s') (hstore : ∃ log, Reflects s.db log)
    (hl : Linked s.writer s.manager.pc) (id : TaskId) :
    s'.db.board.verdict id = s.db.board.verdict id ∨
      ∃ v, s'.db.board.verdict id = some v ∧ Changed s id v := by
  rcases (step_wrote hs hstore).2 with heq | ⟨⟨operation, origin⟩, writer, reply, hw, hwrote⟩
  · exact .inl (by rw [heq])
  · rw [hw] at hl
    generalize s'.db.board = b at hwrote ⊢
    cases hwrote with
    | nothing => exact .inl rfl
    | done he =>
      cases he with
      | createExisting | retryExisting | conflict | notRunning | appended => exact .inl rfl
      | @created input task eventId hn | @retried sourceId task eventId hn =>
        rw [Board.set_verdict]
        split
        · rename_i hid
          exact .inr ⟨_, rfl, .created (hid ▸ hn)⟩
        · exact .inl rfl
      | @applied x expected transition task eventId hst hc htid hnext =>
        rw [Board.set_verdict]
        split
        · rename_i hid
          subst hid
          refine .inr ⟨_, rfl, ?_⟩
          obtain ⟨job, hpc, hop⟩ := hl.transition
          cases job with
          | claim t repository rest repositories =>
            cases hop
            exact .claimed rfl hpc
          | cancel taskId handler =>
            cases hop
            exact .cancelled hpc
          | finish taskId outcome =>
            cases hop
            exact .finished hpc hst
          | append => cases hop
          | quiesce => cases hop
        · exact .inl rfl
      | @recovered now failure out =>
        show (s.db.board.verdict id).map _ = _ ∨ ∃ v, (s.db.board.verdict id).map _ = some v ∧ _
        cases hv : s.db.board.verdict id with
        | none => exact .inl rfl
        | some v =>
          simp only [Option.map_some, Board.recoverVerdict]
          split
          · exact .inr ⟨_, rfl, .recovered hw⟩
          · exact .inl rfl

/-! ## Runners and their messages -/

namespace RunnerPhase

/-- The event on its way to the manager, or in its hands. -/
def posted : RunnerPhase → List (RunnerEvent × Bool)
  | .waiting event => [(event, true)]
  | _ => []

/-- What its task has ended with. -/
def result : RunnerPhase → Option JoinResult
  | .ended result | .reported result => some result
  | _ => none

end RunnerPhase

/-- The event of a message that is about `id`. -/
def TaskManagerMessage.event? (id : TaskId) : TaskManagerMessage → Option (RunnerEvent × Bool)
  | .runnerEvent taskId event awaited => if taskId = id then some (event, awaited) else none
  | _ => none

namespace ManagerPc

/-- The event about `id` that is being written. -/
def event (id : TaskId) : ManagerPc → List (RunnerEvent × Bool)
  | .write (.append taskId event awaited) _ => if taskId = id then [(event, awaited)] else []
  | _ => []

/-- The result that is being written. -/
def finishing : ManagerPc → Option (TaskId × RunnerOutcome)
  | .write (.finish taskId outcome) _ => some (taskId, outcome)
  | _ => none

@[simp] theorem reply_event (pc : ManagerPc) (reply : Option Reply) (id : TaskId) :
    (pc.reply reply).event id = pc.event id := by
  unfold ManagerPc.reply
  split
  · rename_i job
    cases job <;> rfl
  · rfl

@[simp] theorem reply_finishing (pc : ManagerPc) (reply : Option Reply) :
    (pc.reply reply).finishing = pc.finishing := by
  unfold ManagerPc.reply
  split
  · rename_i job
    cases job <;> rfl
  · rfl

end ManagerPc

/-- The runner of a task has ended and been reported. -/
def Returned (runners : TaskId → Option Runner) (id : TaskId) (result : JoinResult) : Prop :=
  ∃ r, runners id = some r ∧ r.phase = .reported result

theorem filterMap_event (id taskId : TaskId) (event : RunnerEvent) (awaited : Bool)
    (mailbox : List TaskManagerMessage) :
    (.runnerEvent taskId event awaited :: mailbox).filterMap (·.event? id) =
      (if taskId = id then [(event, awaited)] else []) ++ mailbox.filterMap (·.event? id) := by
  by_cases hid : taskId = id <;> simp [TaskManagerMessage.event?, hid]

structure Channels (mailbox : List TaskManagerMessage) (pc : ManagerPc)
    (runners : TaskId → Option Runner) : Prop where
  events : ∀ id, pc.event id ++ mailbox.filterMap (·.event? id) =
    ((runners id).map (·.phase.posted)).getD []
  finished : ∀ id outcome, .runnerFinished id outcome ∈ mailbox ∨ pc.finishing = some (id, outcome) →
    ∃ result, Returned runners id result ∧ outcome = result.outcome

/-- The runners of the claim: they await their appends, and return `Cancelled`
only when their token is cancelled. -/
def awaiting (s : Primary) : Label → Bool
  | .stray _ _ => false
  | .runner taskId (.finish .cancelled) => s.isCancelled taskId
  | _ => true

namespace Channels

variable {mailbox mailbox' : List TaskManagerMessage} {pc pc' : ManagerPc}
  {runners : TaskId → Option Runner}

/-- A turn that has no event and no result in its hands. -/
theorem turn (h : Channels mailbox pc runners) (hpc : ∀ id, pc.event id = [])
    (hpc' : (∀ id, pc'.event id = []) ∧ pc'.finishing = none) : Channels mailbox pc' runners := by
  refine ⟨fun id => ?_, fun id outcome hf => h.finished id outcome (.inl ?_)⟩
  · rw [hpc'.1, ← h.events id, hpc]
  · exact hf.resolve_right (by rw [hpc'.2]; nofun)

theorem same (h : Channels mailbox pc runners) (he : ∀ id, pc'.event id = pc.event id)
    (hf : pc'.finishing = pc.finishing) : Channels mailbox pc' runners :=
  ⟨fun id => by rw [he, h.events], fun id outcome => by rw [hf]; exact h.finished id outcome⟩

/-- A message that is no event is received. -/
theorem pop (h : Channels mailbox' pc runners) {message : TaskManagerMessage}
    (hm : mailbox' = message :: mailbox) (hpc : pc = .idle) (he : ∀ id, message.event? id = none)
    (hpc' : ∀ id, pc'.event id = [])
    (hf : ∀ id outcome, pc'.finishing = some (id, outcome) → message = .runnerFinished id outcome) :
    Channels mailbox pc' runners := by
  subst hm hpc
  refine ⟨fun id => ?_, fun id outcome hfin => h.finished id outcome (.inl ?_)⟩
  · rw [hpc', ← h.events, List.filterMap_cons_none (he id)]
    rfl
  · rcases hfin with hfin | hfin
    · exact List.mem_cons_of_mem _ hfin
    · rw [hf id outcome hfin]
      exact List.mem_cons_self

theorem push (h : Channels mailbox pc runners) {message : TaskManagerMessage}
    (he : ∀ id, message.event? id = none) (hf : ∀ id outcome, message ≠ .runnerFinished id outcome) :
    Channels (mailbox ++ [message]) pc runners := by
  refine ⟨fun id => ?_, fun id outcome hfin => h.finished id outcome (hfin.imp_left fun hmem => ?_)⟩
  · rw [← h.events, List.filterMap_append, List.filterMap_cons_none (he id)]
    simp
  · rcases List.mem_append.1 hmem with hmem | hmem
    · exact hmem
    · exact absurd (List.mem_singleton.1 hmem).symm (hf id outcome)

/-- Another runner, with its event on the way and its result kept. -/
theorem runner (h : Channels mailbox pc runners) {id : TaskId} {r? : Option Runner}
    (hp : (r?.map (·.phase.posted)).getD [] = ((runners id).map (·.phase.posted)).getD [])
    (hr : ∀ result, ¬ Returned runners id result) : Channels mailbox pc (put runners id r?) := by
  refine ⟨fun x => ?_, fun x outcome hfin => ?_⟩
  · rw [h.events]
    by_cases hx : x = id
    · rw [hx, put_self, hp]
    · rw [put_ne hx]
  · obtain ⟨result, hret, ho⟩ := h.finished x outcome hfin
    have hx : x ≠ id := by rintro rfl; exact hr result hret
    exact ⟨result, by rwa [Returned, put_ne hx], ho⟩

theorem not_returned {runners : TaskId → Option Runner} {id : TaskId} {r : Runner}
    (hr : runners id = some r) (hp : ∀ result, r.phase ≠ .reported result) (result : JoinResult) :
    ¬ Returned runners id result := by
  rintro ⟨r', hr', hret⟩
  rw [hr] at hr'
  cases hr'
  exact hp result hret

/-- A runner sends its event. -/
theorem pushEvent (h : Channels mailbox pc runners) {taskId : TaskId} {r : Runner}
    {event : RunnerEvent} (hr : runners taskId = some r) (hp : r.phase = .sending event) :
    Channels (mailbox ++ [.runnerEvent taskId event true]) pc
      (put runners taskId (some { r with phase := .waiting event })) := by
  have hself : pc.event taskId ++ mailbox.filterMap (·.event? taskId) = [] := by
    rw [h.events, hr, Option.map_some, Option.getD_some, hp]
    rfl
  refine ⟨fun id => ?_, fun id outcome hfin => ?_⟩
  · rw [List.filterMap_append, ← List.append_assoc]
    by_cases hid : taskId = id
    · subst hid
      rw [put_self, hself, filterMap_event, if_pos rfl]
      rfl
    · rw [put_ne (Ne.symm hid), h.events, filterMap_event, if_neg hid]
      exact List.append_nil _
  · have hmem := hfin.imp_left fun hmem => by simpa using hmem
    obtain ⟨result, hret, ho⟩ := h.finished id outcome hmem
    refine ⟨result, ?_, ho⟩
    rw [Returned, put_ne]
    · exact hret
    · rintro rfl
      exact not_returned hr (by rw [hp]; nofun) result hret

/-- The watcher of a runner reports its end. -/
theorem pushEnd (h : Channels mailbox pc runners) {taskId : TaskId} {r : Runner}
    {result : JoinResult} (hr : runners taskId = some r) (hp : r.phase = .ended result) :
    Channels (mailbox ++ [.runnerFinished taskId result.outcome]) pc
      (put runners taskId (some { r with phase := .reported result })) := by
  have hrun : Channels mailbox pc (put runners taskId (some { r with phase := .reported result })) :=
    h.runner (by rw [hr]; simp [hp, RunnerPhase.posted]) (not_returned hr (by rw [hp]; nofun))
  refine ⟨fun id => ?_, fun id outcome hfin => ?_⟩
  · rw [← hrun.events id]
    simp [TaskManagerMessage.event?]
  · by_cases hnew : id = taskId ∧ outcome = result.outcome
    · obtain ⟨rfl, rfl⟩ := hnew
      exact ⟨result, ⟨_, put_self .., rfl⟩, rfl⟩
    · refine hrun.finished id outcome (hfin.imp_left fun hmem => ?_)
      rcases List.mem_append.1 hmem with hmem | hmem
      · exact hmem
      · cases List.mem_singleton.1 hmem
        exact absurd ⟨rfl, rfl⟩ hnew

/-- The event the manager answers is the one its runner waits for. -/
theorem sender {taskId : TaskId} {event : RunnerEvent} {awaited : Bool}
    {rest : List (RunnerEvent × Bool)}
    (h : (event, awaited) :: rest = ((runners taskId).map (·.phase.posted)).getD []) :
    awaited = true ∧ rest = [] ∧ ∃ r, runners taskId = some r ∧ r.phase = .waiting event := by
  cases hr : runners taskId with
  | none => rw [hr] at h; cases h
  | some r =>
    rw [hr] at h
    simp only [Option.map_some, Option.getD_some] at h
    unfold RunnerPhase.posted at h
    split at h
    · rename_i hp
      simp only [List.cons.injEq, Prod.mk.injEq] at h
      obtain ⟨⟨rfl, rfl⟩, rfl⟩ := h
      exact ⟨rfl, rfl, r, rfl, hp⟩
    · cases h

theorem answered {pc : ManagerPc} {taskId : TaskId} {event : RunnerEvent} {awaited : Bool}
    {result : AppendResult}
    (he : ∀ id, (if taskId = id then [(event, awaited)] else []) ++
      mailbox.filterMap (·.event? id) = ((runners id).map (·.phase.posted)).getD [])
    (hf : ∀ id outcome, .runnerFinished id outcome ∈ mailbox →
      ∃ result, Returned runners id result ∧ outcome = result.outcome)
    (hpc : (∀ id, pc.event id = []) ∧ pc.finishing = none) :
    Channels mailbox pc (if awaited then put runners taskId ((runners taskId).map fun r =>
      { r with phase := .running, results := r.results ++ [(event, result)] }) else runners) := by
  have hself := he taskId
  rw [if_pos rfl] at hself
  obtain ⟨rfl, hrest, r, hr, hp⟩ := sender hself
  rw [if_pos rfl, hr]
  refine ⟨fun id => ?_, fun id outcome hfin => ?_⟩
  · rw [hpc.1]
    by_cases hid : id = taskId
    · rw [hid, put_self]
      exact hrest
    · rw [put_ne hid, ← he id, if_neg (Ne.symm hid)]
  · obtain ⟨result, ⟨r', hr', hret⟩, ho⟩ := hf id outcome (hfin.resolve_right (by rw [hpc.2]; nofun))
    refine ⟨result, ⟨r', ?_, hret⟩, ho⟩
    rw [put_ne]
    · exact hr'
    · rintro rfl
      rw [hr] at hr'
      cases hr'
      rw [hp] at hret
      cases hret

end Channels

theorem posts_event {pc : HandlerPc} {h : Nat} {message : TaskManagerMessage}
    (hp : pc.Posts h message) : (∀ id, message.event? id = none) ∧
      ∀ id outcome, message ≠ .runnerFinished id outcome := by
  unfold HandlerPc.Posts at hp
  split at hp
  · subst hp; exact ⟨fun _ => rfl, fun _ _ => nofun⟩
  · subst hp; exact ⟨fun _ => rfl, fun _ _ => nofun⟩
  · cases hp

theorem cancelling_event {pc : ManagerPc} (h : pc.answering = true) (id : TaskId) :
    pc.event id = [] := by
  unfold ManagerPc.answering at h
  split at h <;> first | rfl | cases h

theorem channels_step (hs : Step s l s') (hok : awaiting s l = true)
    (hscan : Scans s.db.board s.runners s.manager.pc)
    (h : Channels s.mailbox s.manager.pc s.runners) :
    Channels s'.mailbox s'.manager.pc s'.runners := by
  cases hs with
  | post hpc hlive hpost => exact h.push (posts_event hpost).1 (posts_event hpost).2
  | wroteManager hw hx => exact h.same (ManagerPc.reply_event _ _) (ManagerPc.reply_finishing _ _)
  | notified hpc hm | cancelRejected hpc hm | cancelStarted hpc hm | finishIgnored hpc hm
  | finishDropped hpc hm | finalizeRejected hpc hm | finalized hpc hm | quiesceRejected hpc hm
  | quiesceRefused hpc hm | quiesceStarted hpc hm =>
    exact h.pop hm hpc (fun _ => rfl) (fun _ => rfl) (fun _ _ hf => by cases hf)
  | finishStarted hpc hm =>
    exact h.pop hm hpc (fun _ => rfl) (fun _ => rfl) (fun _ _ hf => by cases hf; rfl)
  | @appendStarted now taskId event awaited mailbox hpc hm =>
    rw [hm, hpc] at h
    refine ⟨fun id => ?_, fun id outcome hfin => ?_⟩
    · rw [← h.events id, filterMap_event]
      rfl
    · exact h.finished id outcome (.inl (List.mem_cons_of_mem _ (hfin.resolve_right nofun)))
  | @appendRejected now taskId event awaited mailbox pending error hpc hm =>
    rw [hm, hpc] at h
    refine Channels.answered (fun id => ?_)
      (fun id outcome hmem => h.finished id outcome (.inl (List.mem_cons_of_mem _ hmem)))
      ⟨fun _ => rfl, rfl⟩
    rw [← filterMap_event]
    exact h.events id
  | appended hpc | appendFailed hpc =>
    rw [hpc] at h
    exact .answered h.events (fun id outcome hmem => h.finished id outcome (.inl hmem))
      ⟨fun _ => rfl, rfl⟩
  | ticked hpc | turnEnded hpc | scanStarted hpc | scanned hpc | claimSkipped hpc | claimStarted hpc
  | claimChecked hpc | claimAborted hpc | claimDropped hpc | claimCommitted hpc | claimConflict hpc
  | claimFailed hpc | cancelQueued hpc | finished hpc | finishFailed hpc | quiesced hpc =>
    exact h.turn (fun _ => by rw [hpc]; rfl) ⟨fun _ => rfl, rfl⟩
  | scanStopped hpc =>
    refine h.turn (fun _ => ?_) ⟨fun _ => rfl, rfl⟩
    rcases hpc with hpc | ⟨queue, repositories, hpc⟩ <;> rw [hpc] <;> rfl
  | cancelAnswered hc => exact h.turn (cancelling_event hc) ⟨fun _ => rfl, rfl⟩
  | cancelAccepted ht =>
    exact h.turn (cancelling_event (cancelTarget_answering ht)) ⟨fun _ => rfl, rfl⟩
  | @sent job hpc =>
    refine h.same (fun id => ?_) ?_ <;> rw [hpc] <;> cases job <;> rfl
  | @claimSpawned task current repository rest repositories hpc =>
    have hpc' : (∀ id, (ManagerPc.claimLoop rest repositories).event id = []) ∧
        (ManagerPc.claimLoop rest repositories).finishing = none := ⟨fun _ => rfl, rfl⟩
    have hnone : s.runners current.id = none := by
      obtain ⟨hid, -⟩ := hscan.claim task current (by rw [hpc]; rfl)
      rw [hid]
      exact hscan.fresh _ (by rw [hpc]; exact List.mem_cons_self)
    refine (h.turn (fun _ => by rw [hpc]; rfl) hpc').runner ?_ ?_
    · rw [hnone]; rfl
    · rintro result ⟨r, hr, -⟩
      rw [hnone] at hr
      cases hr
  | @acted taskId action runner phase hr hp hphase =>
    refine h.runner ?_ (Channels.not_returned hr (by rw [hp]; nofun))
    rw [hr]
    simp only [Option.map_some, Option.getD_some, hp, hphase]
    cases action <;> rfl
  | reportedEvent hr hp => exact h.pushEvent hr hp
  | reportedEnd hr hp => exact h.pushEnd hr hp
  | strayed => cases hok
  | finalizeSent => exact h.push (fun _ => rfl) nofun
  | quiesceSent => exact h.push (fun _ => rfl) nofun
  | _ => exact h

/-! ## Tokens -/

/-- Where the sequence cancels tokens, or is about to. -/
def ShutdownPc.stops : ShutdownPc → Bool
  | .quiesced (.durable _ _) | .cancelRoot _ | .cancelAll _ _ => true
  | _ => false

/-- A shutdown cancels only after the freeze. -/
structure Stops (control : ShutdownControl) (shutdown : ShutdownPc) : Prop where
  root : control.cancelled = true → control.frozen = true
  stops : shutdown.stops = true → control.frozen = true

theorem ShutdownMove.stops_of {pc pc' : ShutdownPc} (h : ShutdownMove pc pc')
    (hs : pc'.stops = true) : pc.stops = true := by
  cases h <;> first | rfl | cases hs

theorem stops_step (hs : Step s l s') (hmode : Modes s.manager s.control)
    (h : Stops s.control s.shutdown) : Stops s'.control s'.shutdown := by
  cases hs with
  | quiesceRejected =>
    refine ⟨h.root, fun hst => h.stops ?_⟩
    simp only [Primary.replyQuiesce] at hst
    split at hst
    · cases hst
    · exact hst
  | quiesceRefused | quiesceStarted | frozen => exact ⟨fun _ => rfl, fun _ => rfl⟩
  | quiesced hpc => exact ⟨h.root, fun _ => hmode.frozen (hmode.quiescing (by rw [hpc]; rfl))⟩
  | shutdownStarted hns hpc =>
    refine ⟨h.root, fun hst => ?_⟩
    rcases hpc with rfl | rfl <;> cases hst
  | panicked | waitedIdle | quiesceSent => exact ⟨h.root, fun hst => by cases hst⟩
  | shutdownMoved hmove => exact ⟨h.root, fun hst => h.stops (hmove.stops_of hst)⟩
  | rootCancelled hpc =>
    have hf := h.stops (by rw [hpc]; rfl)
    exact ⟨fun _ => hf, fun _ => hf⟩
  | tokenCancelled hpc => exact ⟨h.root, fun _ => h.stops (by rw [hpc]; rfl)⟩
  | _ => exact h

structure Tokens (board : Board) (degraded frozen : Bool) (pc : ManagerPc)
    (cancelled : TaskId → Bool) (accepted : List TaskId) : Prop where
  token : ∀ id, cancelled id = true →
    id ∈ accepted ∨ frozen = true ∨ degraded = true ∨ board.status id ≠ some .running
  /-- a claim begins with a new token -/
  claim : ∀ id, pc.claimed = some id → cancelled id = true → frozen = true

namespace Tokens

variable {board : Board} {degraded frozen : Bool} {pc pc' : ManagerPc}
  {cancelled cancelled' : TaskId → Bool} {accepted : List TaskId}

theorem turn (h : Tokens board degraded frozen pc cancelled accepted) (hpc : pc'.claimed = none) :
    Tokens board degraded frozen pc' cancelled accepted :=
  ⟨h.token, fun id hid => by rw [hpc] at hid; cases hid⟩

theorem same (h : Tokens board degraded frozen pc cancelled accepted)
    (hpc : pc'.claimed = pc.claimed) : Tokens board degraded frozen pc' cancelled accepted :=
  ⟨h.token, fun id hid => h.claim id (hpc ▸ hid)⟩

/-- In these modes every token may be cancelled. -/
theorem dark (h : frozen = true ∨ degraded = true ∧ pc.claimed = none) :
    Tokens board degraded frozen pc cancelled accepted := by
  rcases h with h | ⟨h, hpc⟩
  · exact ⟨fun _ _ => .inr (.inl h), fun _ _ _ => h⟩
  · exact ⟨fun _ _ => .inr (.inr (.inl h)), fun id hid => by rw [hpc] at hid; cases hid⟩

end Tokens

theorem tokens_step (hs : Step s l s') (hstore : ∃ log, Reflects s.db log)
    (hl : Linked s.writer s.manager.pc)
    (hrec : Recovery s.coordinator s.manager.degraded s.mailbox s.db.board)
    (hstop : Stops s.control s.shutdown)
    (h : Tokens s.db.board s.manager.degraded s.control.frozen s.manager.pc s.cancelled
      s.accepted) :
    Tokens s'.db.board s'.manager.degraded s'.control.frozen s'.manager.pc s'.cancelled
      s'.accepted := by
  -- a row that gets running is that of the claim in progress
  have keep : ∀ id, s.cancelled id = true → id ∈ s.accepted ∨ s.control.frozen = true ∨
      s.manager.degraded = true ∨ s'.db.board.status id ≠ some .running := by
    intro id hid
    by_cases hc : s.manager.pc.claimed = some id
    · exact .inr (.inl (h.claim id hc hid))
    · exact (h.token id hid).imp_right (Or.imp_right (Or.imp_right
        (step_not_running hs hstore hl hc)))
  cases hs with
  | wroteManager hw hx =>
    exact ⟨keep, fun id hid => h.claim id (by rwa [goto_pc, ManagerPc.reply_claimed] at hid)⟩
  | wroteCoordinator | wroteHandler => exact ⟨keep, h.claim⟩
  | notified | ticked | turnEnded | scanStarted | cancelRejected | cancelStarted | appendRejected
  | appendStarted | finishIgnored | finishDropped | finishStarted | finalizeRejected
  | quiesceRejected | scanStopped | scanned | claimSkipped | claimAborted | claimDropped
  | claimSpawned | claimConflict | claimFailed | cancelAnswered | cancelQueued | appended
  | finished | quiesced =>
    exact h.turn rfl
  | claimChecked hpc | claimCommitted hpc => exact h.same (by rw [hpc]; rfl)
  | finalized hpc hm =>
    refine ⟨fun id _ => .inr (.inr (.inr ?_)), fun _ hid => by cases hid⟩
    exact hrec.recovered _ (hrec.head hm).1 rfl id
  | quiesceRefused | quiesceStarted | frozen => exact .dark (.inl rfl)
  | appendFailed | finishFailed => exact .dark (.inr ⟨rfl, rfl⟩)
  | @claimStarted senderOpen task rest repositories repository hpc =>
    refine ⟨fun id (hid : put s.cancelled task.id false id = true) => ?_, fun id hid
      (hc : put s.cancelled task.id false id = true) => ?_⟩
    · by_cases hne : id = task.id
      · rw [hne, put_self] at hid; cases hid
      · rw [put_ne hne] at hid
        exact h.token id hid
    · cases hid
      rw [put_self] at hc
      cases hc
  | @sent job hpc =>
    refine h.same ?_
    rw [hpc]
    cases job <;> rfl
  | @cancelAccepted _ taskId handler task ht =>
    refine ⟨fun id (hid : put s.cancelled task.id true id = true) => ?_, fun _ hid => by cases hid⟩
    by_cases hne : id = task.id
    · exact .inl (by rw [hne]; exact List.mem_append_right _ List.mem_cons_self)
    · rw [put_ne hne] at hid
      exact (h.token id hid).imp_left (List.mem_append_left _)
  | tokenCancelled hpc => exact .dark (.inl (hstop.stops (by rw [hpc]; rfl)))
  | _ => exact h

/-! ## Results -/

theorem put_true {f : TaskId → Bool} {id x : TaskId} (h : f x = true) : put f id true x = true := by
  by_cases hx : x = id
  · rw [hx, put_self]
  · rwa [put_ne hx]

/-- A `Cancelled` result comes from a cancelled token, and one that is being
written for a running row from an accepted cancel. -/
structure Results (board : Board) (root : Bool) (pc : ManagerPc) (cancelled : TaskId → Bool)
    (accepted : List TaskId) (runners : TaskId → Option Runner) : Prop where
  returned : ∀ id r, runners id = some r → r.phase.result = some (.returned .cancelled) →
    cancelled id = true ∨ root = true
  finishing : ∀ id, pc.finishing = some (id, .cancelled) →
    id ∈ accepted ∨ board.status id ≠ some .running

namespace Results

variable {board : Board} {root root' : Bool} {pc pc' : ManagerPc}
  {cancelled cancelled' : TaskId → Bool} {accepted accepted' : List TaskId}
  {runners runners' : TaskId → Option Runner}

theorem turn (h : Results board root pc cancelled accepted runners) (hpc : pc'.finishing = none) :
    Results board root pc' cancelled accepted' runners :=
  ⟨h.returned, fun id hid => by rw [hpc] at hid; cases hid⟩

/-- Tokens and the root only get cancelled. -/
theorem mono (h : Results board root pc cancelled accepted runners)
    (hc : ∀ id, cancelled id = true → cancelled' id = true) (hr : root = true → root' = true) :
    Results board root' pc cancelled' accepted runners :=
  ⟨fun id r hrun hres => (h.returned id r hrun hres).imp (hc id) hr, h.finishing⟩

/-- Another runner, whose result is no new `Cancelled`. -/
theorem runner (h : Results board root pc cancelled accepted runners) {id : TaskId} {r? : Option Runner}
    (hres : ∀ r, r? = some r → r.phase.result = some (.returned .cancelled) →
      cancelled id = true ∨ root = true) :
    Results board root pc cancelled accepted (put runners id r?) := by
  refine ⟨fun x r hr => ?_, h.finishing⟩
  by_cases hx : x = id
  · subst hx
    rw [put_self] at hr
    exact hres r hr
  · rw [put_ne hx] at hr
    exact h.returned x r hr

/-- The manager answers an append. -/
theorem reply (h : Results board root pc cancelled accepted runners) {taskId : TaskId}
    {event : RunnerEvent} {awaited : Bool} {result : AppendResult} :
    Results board root pc cancelled accepted
      (if awaited then put runners taskId ((runners taskId).map fun r =>
        { r with phase := .running, results := r.results ++ [(event, result)] }) else runners) := by
  split
  · refine h.runner fun r hr hres => ?_
    obtain ⟨r', -, rfl⟩ := Option.map_eq_some_iff.1 hr
    cases hres
  · exact h

end Results

theorem JoinResult.outcome_cancelled {result : JoinResult} (h : RunnerOutcome.cancelled = result.outcome) :
    result = .returned .cancelled := by
  cases result with
  | returned outcome => cases outcome <;> first | rfl | cases h
  | panicked => cases h

theorem results_step (hs : Step s l s') (hok : awaiting s l = true) (hstore : ∃ log, Reflects s.db log)
    (hl : Linked s.writer s.manager.pc) (hscan : Scans s.db.board s.runners s.manager.pc)
    (hchan : Channels s.mailbox s.manager.pc s.runners) (hstop : Stops s.control s.shutdown)
    (htok : Tokens s.db.board s.manager.degraded s.control.frozen s.manager.pc s.cancelled
      s.accepted)
    (h : Results s.db.board s.control.cancelled s.manager.pc s.cancelled s.accepted s.runners) :
    Results s'.db.board s'.control.cancelled s'.manager.pc s'.cancelled s'.accepted s'.runners := by
  have keep : ∀ id, s.manager.pc.finishing = some (id, .cancelled) →
      id ∈ s.accepted ∨ s'.db.board.status id ≠ some .running := by
    intro id hid
    refine (h.finishing id hid).imp_right (step_not_running hs hstore hl ?_)
    unfold ManagerPc.finishing at hid
    split at hid
    · rename_i hpc
      rw [hpc]
      nofun
    · cases hid
  cases hs with
  | wroteManager hw hx =>
    exact ⟨h.returned, fun id hid => keep id (by rwa [goto_pc, ManagerPc.reply_finishing] at hid)⟩
  | wroteCoordinator | wroteHandler => exact ⟨h.returned, keep⟩
  | notified | ticked | turnEnded | scanStarted | cancelRejected | cancelStarted | appendStarted
  | finishIgnored | finishDropped | finalizeRejected | finalized | quiesceRejected | quiesceRefused
  | quiesceStarted | scanStopped | scanned | claimSkipped | claimChecked | claimAborted
  | claimDropped | claimCommitted | claimConflict | claimFailed | cancelAnswered | cancelQueued
  | finished | quiesced =>
    exact h.turn rfl
  | appendRejected | appended => exact (h.turn rfl).reply
  | appendFailed =>
    exact ((h.turn rfl).mono (fun _ hid => Bool.or_inl hid) id).reply
  | finishFailed =>
    exact (h.turn rfl).mono (fun _ hid => Bool.or_inl hid) id
  | @finishStarted now taskId outcome mailbox hpc hm hf hd =>
    refine ⟨h.returned, ?_⟩
    rintro id ⟨⟩
    obtain ⟨result, ⟨r, hr, hp⟩, ho⟩ := hchan.finished taskId .cancelled
      (.inl (by rw [hm]; exact List.mem_cons_self))
    have hthaw := (isFrozen_false hf).2
    rcases h.returned taskId r hr (by rw [hp, JoinResult.outcome_cancelled ho]; rfl) with hc | hroot
    · rcases htok.token taskId hc with ha | hfro | hdeg | hrun
      · exact .inl ha
      · rw [hthaw] at hfro; cases hfro
      · rw [hd] at hdeg; cases hdeg
      · exact .inr hrun
    · rw [hstop.root hroot] at hthaw
      cases hthaw
  | @claimStarted senderOpen task rest repositories repository hpc =>
    -- the task has no runner yet
    refine ⟨fun id r hr hres => ?_, fun _ hid => by cases hid⟩
    refine (h.returned id r hr hres).imp_left fun hc => ?_
    show put s.cancelled task.id false id = true
    rw [put_ne]
    · exact hc
    · rintro rfl
      have hnone := hscan.fresh task.id (by rw [hpc]; exact List.mem_cons_self)
      rw [hnone] at hr
      cases hr
  | @sent job hpc =>
    refine ⟨h.returned, fun id hid => h.finishing id ?_⟩
    rw [hpc]
    cases job <;> exact hid
  | claimSpawned => exact (h.turn rfl).runner (by rintro r ⟨⟩ ⟨⟩)
  | @cancelAccepted _ taskId handler task =>
    exact (h.turn rfl).mono (fun _ hid => put_true hid) id
  | @acted taskId action runner phase hr hp hphase =>
    refine h.runner ?_
    rintro r ⟨⟩ hres
    subst hphase
    cases action with
    | append => cases hres
    | panic => cases hres
    | finish outcome =>
      cases hres
      simpa [Primary.isCancelled] using (show s.isCancelled taskId = true from hok)
  | reportedEvent hr hp => exact h.runner (by rintro r ⟨⟩ ⟨⟩)
  | @reportedEnd taskId runner result hr hp =>
    refine h.runner ?_
    rintro r ⟨⟩ hres
    exact h.returned taskId runner hr (by rw [hp]; exact hres)
  | rootCancelled => exact h.mono (fun _ => id) fun _ => rfl
  | @tokenCancelled outcome id active =>
    exact h.mono (fun _ hid => put_true hid) fun hr => hr
  | _ => exact h

/-! ## Panel events -/

def RunnerEvent.entry (event : RunnerEvent) : PanelEntry := .ofPayload event.intoPayload

/-- The payloads of its appends that returned `Ok`, in call order. -/
def Runner.acknowledged (r : Runner) : List PanelEntry :=
  r.results.filterMap fun
    | (event, .ok _) => some event.entry
    | (_, .error _) => none

/-- The append about `id` that has committed, its reply not yet given. -/
def ManagerPc.committed (id : TaskId) : ManagerPc → List PanelEntry
  | .write (.append taskId event _) (.replied (some (.append (.applied _)))) =>
    if taskId = id then [event.entry] else []
  | _ => []

/-- The panel events of a task are those of before the start, which only a task
without a runner has, and those of its runner. -/
structure Stored (start board : Board) (pc : ManagerPc) (runners : TaskId → Option Runner) :
    Prop where
  panel : ∀ id, board.panel id =
    start.panel id ++ ((runners id).map (·.acknowledged)).getD [] ++ pc.committed id
  fresh : ∀ id, (runners id).isSome → start.panel id = []
  claim : ∀ task current, pc.claimReply = some (task, current) → start.panel task.id = []

namespace Stored

variable {start board board' : Board} {pc pc' : ManagerPc} {runners runners' : TaskId → Option Runner}

theorem turn (h : Stored start board pc runners) (hpc : ∀ id, pc.committed id = [])
    (hpc' : (∀ id, pc'.committed id = []) ∧ pc'.claimReply = none) :
    Stored start board pc' runners := by
  refine ⟨fun id => ?_, h.fresh, fun task current hc => ?_⟩
  · rw [h.panel, hpc, hpc'.1]
  · rw [hpc'.2] at hc; cases hc

/-- The database has changed, but no panel. -/
theorem written (h : Stored start board pc runners) (hb : board'.panel = board.panel) :
    Stored start board' pc runners :=
  ⟨fun id => by rw [hb]; exact h.panel id, h.fresh, h.claim⟩

/-- A runner that has the same results. -/
theorem runner (h : Stored start board pc runners) {id : TaskId} {r r' : Runner}
    (hr : runners id = some r) (hres : r'.results = r.results) :
    Stored start board pc (put runners id (some r')) := by
  refine ⟨fun x => ?_, fun x hx => h.fresh x (put_some_isSome hr x hx), h.claim⟩
  rw [h.panel]
  by_cases hx : x = id
  · subst hx
    rw [put_self, hr]
    simp only [Option.map_some, Option.getD_some, Runner.acknowledged, hres]
  · rw [put_ne hx]

end Stored

/-- The manager answers an append: what had committed is now acknowledged. -/
theorem Stored.answer {start board : Board} {pc : ManagerPc} {runners : TaskId → Option Runner}
    {taskId : TaskId} {event : RunnerEvent} {awaited : Bool} {result : AppendResult}
    (h : Stored start board pc runners)
    (hw : awaited = true ∧ ∃ r, runners taskId = some r ∧ r.phase = .waiting event)
    (hc : ∀ id, pc.committed id = if taskId = id then
      (match result with | .ok _ => [event.entry] | .error _ => []) else []) :
    Stored start board .turnEnd (if awaited then put runners taskId ((runners taskId).map fun r =>
      { r with phase := .running, results := r.results ++ [(event, result)] }) else runners) := by
  obtain ⟨rfl, r, hr, -⟩ := hw
  rw [if_pos rfl, hr, Option.map_some]
  refine ⟨fun id => ?_, fun id hid => h.fresh id (put_some_isSome hr id hid),
    fun _ _ hcl => by cases hcl⟩
  rw [h.panel, hc]
  by_cases hid : taskId = id
  · subst hid
    rw [put_self, hr, if_pos rfl]
    simp only [Option.map_some, Option.getD_some, Runner.acknowledged, List.filterMap_append,
      ManagerPc.committed]
    cases result <;> simp
  · rw [put_ne (Ne.symm hid), if_neg hid]
    rfl

theorem answering_committed {pc : ManagerPc} (h : pc.answering = true) (id : TaskId) :
    pc.committed id = [] := by
  unfold ManagerPc.answering at h
  split at h <;> first | rfl | cases h

/-- The panel of a task that is queued is empty, here and at the start. -/
theorem Stored.queued {start : Board} {db : Db} {pc : ManagerPc}
    {runners : TaskId → Option Runner} (h : Stored start db.board pc runners)
    (hstore : ∃ log, Reflects db log) {id : TaskId} (hq : db.board.status id = some .queued) :
    start.panel id = [] := by
  obtain ⟨log, hlog⟩ := hstore
  have hempty : db.board.panel id = [] := by
    rw [board_reflects hlog] at hq ⊢
    refine panel_unstarted hlog.valid ?_
    rintro ⟨status, hst, hne⟩
    rw [hq] at hst
    cases hst
    exact hne rfl
  rw [h.panel, List.append_assoc] at hempty
  exact (List.append_eq_nil_iff.1 hempty).1

theorem stored_wroteManager {start : Board} {env : Env} {repositoryId : RepositoryId} {fails : Bool}
    {operation : StoreWriterOperation} {writer : List WriteCommand}
    {outcome : Option StoreWriterOperationOutcome} {db : Db}
    (hw : s.writer = ⟨operation, .manager⟩ :: writer)
    (hx : operation.execute env repositoryId fails s.db = (outcome, db))
    (hstore : ∃ log, Reflects s.db log) (hl : Linked s.writer s.manager.pc)
    (h : Stored start s.db.board s.manager.pc s.runners) :
    Stored start db.board (s.manager.pc.reply (outcome.bind (·.reply?))) s.runners := by
  obtain ⟨-, hwrote⟩ := execute_wrote hstore hx
  rw [hw] at hl
  obtain ⟨job, hpc, rfl, -⟩ := hl.head
  generalize outcome.bind (·.reply?) = reply at hwrote
  rw [hpc] at h ⊢
  have hold : ∀ id, db.board.panel id = s.db.board.panel id →
      db.board.panel id = start.panel id ++ ((s.runners id).map (·.acknowledged)).getD [] := by
    intro id heq
    rw [heq, h.panel]
    cases job <;> exact List.append_nil _
  cases job with
  | append taskId event awaited =>
    by_cases hr : ∃ eventId, reply = some (.append (.applied eventId))
    · obtain ⟨eventId, rfl⟩ := hr
      refine ⟨fun id => ?_, h.fresh, fun _ _ hc => by cases hc⟩
      rw [hwrote.appended, Board.push_panel, h.panel]
      show (if id = taskId then _ else _) = _ ++ if taskId = id then _ else _
      by_cases hid : id = taskId
      · rw [if_pos hid, if_pos hid.symm]
        simp [ManagerPc.committed, RunnerEvent.entry]
      · rw [if_neg hid, if_neg (Ne.symm hid)]
        rfl
    · have hsame := hwrote.unappended fun eventId he => hr ⟨eventId, he⟩
      rw [hsame]
      refine h.turn (fun _ => rfl) ⟨fun id => ?_, rfl⟩
      show ManagerPc.committed id (.write _ (.replied reply)) = []
      unfold ManagerPc.committed
      split
      · rename_i heq
        cases heq
        exact absurd ⟨_, rfl⟩ hr
      · rfl
  | claim task repository rest repositories =>
    have hpanel := hwrote.panel fun _ _ => nofun
    refine ⟨fun id => (hold id (by rw [hpanel])).trans (List.append_nil _).symm, h.fresh, ?_⟩
    intro t current hc
    obtain ⟨_, _, _, eventId, hjob, hrep⟩ := ManagerPc.reply_claimReply hc
    cases hjob
    rw [hrep] at hwrote
    exact h.queued hstore hwrote.applied.1
  | cancel | finish | quiesce =>
    exact (h.written (hwrote.panel fun _ _ => nofun)).turn (fun _ => rfl) ⟨fun _ => rfl, rfl⟩

/-- Only the manager appends. -/
theorem Linked.panel_of_other {command : WriteCommand} {writer : List WriteCommand} {pc : ManagerPc}
    (h : Linked (command :: writer) pc) (ho : command.origin ≠ .manager) (id : TaskId)
    (payload : TaskEventPayload) : command.operation ≠ .task (.appendRunningEvent id payload) := by
  intro hop
  cases hor : command.origin with
  | manager => exact ho hor
  | coordinator =>
    obtain ⟨now, hrec⟩ := h.coordinator _ List.mem_cons_self hor
    rw [hop] at hrec
    cases hrec
  | handler n =>
    have hcr := h.handler _ List.mem_cons_self n hor
    rw [hop] at hcr
    exact hcr

/-- The runner whose append the manager answers. -/
theorem Channels.answering {mailbox : List TaskManagerMessage} {taskId : TaskId}
    {event : RunnerEvent} {awaited : Bool} {stage : WriteStage}
    {runners : TaskId → Option Runner}
    (h : Channels mailbox (.write (.append taskId event awaited) stage) runners) :
    awaited = true ∧ ∃ r, runners taskId = some r ∧ r.phase = .waiting event := by
  have he := h.events taskId
  change (if taskId = taskId then [(event, awaited)] else []) ++ _ = _ at he
  rw [if_pos rfl] at he
  obtain ⟨ha, -, hr⟩ := sender he
  exact ⟨ha, hr⟩

theorem Channels.rejecting {mailbox mailbox' : List TaskManagerMessage} {taskId : TaskId}
    {event : RunnerEvent} {awaited : Bool} {runners : TaskId → Option Runner}
    (h : Channels mailbox .idle runners)
    (hm : mailbox = .runnerEvent taskId event awaited :: mailbox') :
    awaited = true ∧ ∃ r, runners taskId = some r ∧ r.phase = .waiting event := by
  have he := h.events taskId
  rw [hm, filterMap_event, if_pos rfl] at he
  obtain ⟨ha, -, hr⟩ := sender he
  exact ⟨ha, hr⟩

theorem stored_step {start : Board} (hs : Step s l s') (hstore : ∃ log, Reflects s.db log)
    (hl : Linked s.writer s.manager.pc) (hscan : Scans s.db.board s.runners s.manager.pc)
    (hchan : Channels s.mailbox s.manager.pc s.runners)
    (h : Stored start s.db.board s.manager.pc s.runners) :
    Stored start s'.db.board s'.manager.pc s'.runners := by
  cases hs with
  | wroteManager hw hx => exact stored_wroteManager hw hx hstore hl h
  | wroteCoordinator hw hx | wroteHandler hw hx =>
    obtain ⟨-, hwrote⟩ := execute_wrote hstore hx
    rw [hw] at hl
    exact h.written (hwrote.panel (hl.panel_of_other (by simp)))
  | notified hpc | ticked hpc | turnEnded hpc | scanStarted hpc | cancelRejected hpc
  | cancelStarted hpc | appendStarted hpc | finishIgnored hpc | finishDropped hpc
  | finishStarted hpc | finalizeRejected hpc | finalized hpc | quiesceRejected hpc
  | quiesceRefused hpc | quiesceStarted hpc | scanned hpc | claimSkipped hpc | claimStarted hpc
  | claimAborted hpc | claimDropped hpc | claimConflict hpc | claimFailed hpc | cancelQueued hpc
  | finished hpc | finishFailed hpc | quiesced hpc =>
    exact h.turn (fun _ => by rw [hpc]; rfl) ⟨fun _ => rfl, rfl⟩
  | claimChecked hpc hst =>
    rcases hst with ⟨rfl, rfl⟩ | ⟨rfl, rfl⟩ <;>
      exact h.turn (fun _ => by rw [hpc]; rfl) ⟨fun _ => rfl, rfl⟩
  | claimCommitted hpc =>
    rw [hpc] at h
    exact ⟨h.panel, h.fresh, h.claim⟩
  | scanStopped hpc =>
    refine h.turn (fun _ => ?_) ⟨fun _ => rfl, rfl⟩
    rcases hpc with hpc | ⟨queue, repositories, hpc⟩ <;> rw [hpc] <;> rfl
  | cancelAnswered hc => exact h.turn (answering_committed hc) ⟨fun _ => rfl, rfl⟩
  | cancelAccepted ht =>
    exact h.turn (answering_committed (cancelTarget_answering ht)) ⟨fun _ => rfl, rfl⟩
  | @sent job hpc =>
    refine h.turn (fun _ => ?_) ⟨fun _ => ?_, ?_⟩
    · rw [hpc]; cases job <;> rfl
    · cases job <;> rfl
    · cases job <;> rfl
  | appendRejected hpc hm =>
    rw [hpc] at h hchan
    refine h.answer (hchan.rejecting hm) fun id => ?_
    simp [ManagerPc.committed]
  | @appended taskId event awaited reply result hpc hres =>
    rw [hpc] at h hchan
    refine h.answer hchan.answering fun id => ?_
    subst hres
    cases reply <;> simp [ManagerPc.committed]
  | @appendFailed taskId event awaited reply hpc hne =>
    rw [hpc] at h hchan
    refine h.answer hchan.answering fun id => ?_
    unfold ManagerPc.committed
    split
    · rename_i heq
      cases heq
      exact absurd rfl (hne _)
    · simp
  | @claimSpawned task current repository rest repositories hpc =>
    rw [hpc] at h hscan
    obtain ⟨hid, -⟩ := hscan.claim task current rfl
    have hnone : s.runners current.id = none := by
      rw [hid]
      exact hscan.fresh _ List.mem_cons_self
    refine ⟨fun id => ?_, fun id hr => ?_, fun _ _ hc => by cases hc⟩
    · show _ = _ ++ ((put s.runners current.id _ id).map _).getD [] ++ []
      rw [h.panel]
      by_cases hx : id = current.id
      · rw [hx, put_self, hnone]
        rfl
      · rw [put_ne hx]
        rfl
    · change (put s.runners current.id _ id).isSome at hr
      by_cases hx : id = current.id
      · rw [hx, hid]
        exact h.claim task current rfl
      · rw [put_ne hx] at hr
        exact h.fresh id hr
  | acted hr hp hphase => exact h.runner hr rfl
  | reportedEvent hr hp => exact h.runner hr rfl
  | reportedEnd hr hp => exact h.runner hr rfl
  | _ => exact h

/-! ## The result -/

structure Faithful (concurrency : Nat) (start : Board) (s : Primary) : Prop where
  sound : Sound concurrency s
  channels : Channels s.mailbox s.manager.pc s.runners
  stops : Stops s.control s.shutdown
  tokens : Tokens s.db.board s.manager.degraded s.control.frozen s.manager.pc s.cancelled s.accepted
  results : Results s.db.board s.control.cancelled s.manager.pc s.cancelled s.accepted s.runners
  stored : Stored start s.db.board s.manager.pc s.runners

variable {concurrency : Nat} {db : Db}

theorem inductive_faithful (h : Recovered db) :
    ((primary concurrency db).restrict fun s l => awaiting s l).Inductive (Faithful concurrency db.board) where
  init s hi := by
    subst hi
    refine ⟨sound_start h, ⟨fun _ => rfl, fun id outcome hf => ?_⟩, ⟨fun hc => ?_, fun hst => ?_⟩,
      ⟨fun id hc => ?_, fun id hc => ?_⟩, ⟨fun id r hr => ?_, fun id hf => ?_⟩,
      ⟨fun id => ?_, fun id hr => ?_, fun _ _ hc => ?_⟩⟩
    · have hnone := hf.resolve_left List.not_mem_nil
      cases hnone
    · cases hc
    · cases hst
    · cases hc
    · cases hc
    · cases hr
    · cases hf
    · show db.board.panel id = db.board.panel id ++ [] ++ []
      simp
    · cases hr
    · cases hc
  step s l s' hs hstep := by
    obtain ⟨hok, hnext⟩ := hstep
    have hstep := step_of_next hnext
    obtain ⟨hsound, hchan, hstop, htok, hres, hstored⟩ := hs
    exact ⟨sound_step hstep hsound, channels_step hstep hok hsound.scans hchan,
      stops_step hstep hsound.modes hstop,
      tokens_step hstep hsound.store hsound.linked hsound.recovery hstop htok,
      results_step hstep hok hsound.store hsound.linked hsound.scans hchan hstop htok hres,
      stored_step hstep hsound.store hsound.linked hsound.scans hchan hstored⟩

/-- The row gets this status. -/
def Becomes (s s' : Primary) (id : TaskId) (status : TaskStatus) : Prop :=
  s.db.board.status id ≠ some status ∧ s'.db.board.status id = some status

theorem Becomes.changed {id : TaskId} {status : TaskStatus} (hb : Becomes s s' id status)
    (hs : Step s l s') (h : Sound concurrency s) :
    ∃ v, s'.db.board.verdict id = some v ∧ v.status = status ∧ Changed s id v := by
  obtain ⟨hne, hst⟩ := hb
  rcases step_verdict hs h.store h.linked id with heq | ⟨v, hv, hc⟩
  · rw [Board.status, heq] at hst
    exact absurd hst hne
  · rw [Board.status, hv] at hst
    exact ⟨v, hv, Option.some.inj hst, hc⟩

/-- The result that is being written is what the runner's task has ended with. -/
theorem Faithful.finishing {start : Board} (h : Faithful concurrency start s) {id : TaskId}
    {outcome : RunnerOutcome} {stage : WriteStage}
    (hpc : s.manager.pc = .write (.finish id outcome) stage) :
    ∃ result, Returned s.runners id result ∧ outcome = result.outcome :=
  h.channels.finished id outcome (.inr (by rw [hpc]; rfl))

theorem Faithful.cancelled {start : Board} (h : Faithful concurrency start s) (hs : Step s l s')
    {id : TaskId} (hb : Becomes s s' id .cancelled) :
    id ∈ s.accepted ∨ ∃ handler, s.manager.pc = .write (.cancel id handler) .waiting := by
  obtain ⟨v, -, hst, hc⟩ := hb.changed hs h.sound
  cases hc with
  | cancelled hpc => exact .inr ⟨_, hpc⟩
  | @finished outcome hpc hrun =>
    cases outcome with
    | cancelled => exact .inl ((h.results.finishing id (by rw [hpc]; rfl)).resolve_right (absurd hrun))
    | succeeded => cases hst
    | failed => cases hst
  | _ => cases hst

theorem Faithful.completed {start : Board} (h : Faithful concurrency start s) (hs : Step s l s')
    {id : TaskId} (hb : Becomes s s' id .completed) :
    Returned s.runners id (.returned .succeeded) := by
  obtain ⟨v, -, hst, hc⟩ := hb.changed hs h.sound
  cases hc with
  | @finished outcome hpc hrun =>
    obtain ⟨result, hret, rfl⟩ := h.finishing hpc
    cases result with
    | returned outcome => cases outcome <;> first | exact hret | cases hst
    | panicked => cases hst
  | _ => cases hst

theorem Faithful.failed {start : Board} (h : Faithful concurrency start s) (hs : Step s l s')
    {id : TaskId} (hb : Becomes s s' id .failed) :
    ∃ failure, s'.db.board.verdict id = some ⟨.failed, some failure⟩ ∧
      (Returned s.runners id (.returned (.failed failure)) ∨
        Returned s.runners id .panicked ∧ failure = runnerPanickedFailure) := by
  obtain ⟨v, hv, hst, hc⟩ := hb.changed hs h.sound
  cases hc with
  | @finished outcome hpc hrun =>
    obtain ⟨result, hret, rfl⟩ := h.finishing hpc
    cases result with
    | returned outcome =>
      cases outcome with
      | failed failure => exact ⟨failure, hv, .inl hret⟩
      | succeeded => cases hst
      | cancelled => cases hst
    | panicked => exact ⟨runnerPanickedFailure, hv, .inr ⟨hret, rfl⟩⟩
  | _ => cases hst

theorem Faithful.interrupted {start : Board} (h : Faithful concurrency start s) (hs : Step s l s')
    {id : TaskId} (hb : Becomes s s' id .interrupted) :
    ∃ now failure origin writer,
      s.writer = ⟨.task (.recoverIncomplete now failure), origin⟩ :: writer := by
  obtain ⟨v, -, hst, hc⟩ := hb.changed hs h.sound
  cases hc with
  | recovered hw => exact ⟨_, _, _, _, hw⟩
  | @finished outcome hpc hrun => cases outcome <;> cases hst
  | _ => cases hst

/-- What has committed and is not yet acknowledged is the event its runner
waits for. -/
theorem Faithful.committed {start : Board} (h : Faithful concurrency start s) {id : TaskId}
    (hc : s.manager.pc.committed id ≠ []) :
    ∃ r event, s.runners id = some r ∧ r.phase = .waiting event ∧
      s.manager.pc.committed id = [event.entry] := by
  have hchan := h.channels
  cases hpc : s.manager.pc with
  | write job stage =>
    rw [hpc] at hc hchan
    unfold ManagerPc.committed at hc ⊢
    split at hc
    · rename_i taskId event awaited eventId heq
      cases heq
      split at hc
      · rename_i hid
        subst hid
        obtain ⟨-, r, hr, hp⟩ := hchan.answering
        exact ⟨r, event, hr, hp, by simp⟩
      · exact absurd rfl hc
    · exact absurd rfl hc
  | _ => rw [hpc] at hc; exact absurd rfl hc

/-- **Attribution.** A row becomes `Cancelled` only by the manager's own cancel
of it or after one it has accepted, `Completed` only if its runner returned
`Succeeded`, `Failed` only with the failure its runner returned or after its
panic, `Interrupted` only by a recovery. The panel events of a task that was run
are the payloads of its appends that returned `Ok`, in call order, and while it
waits for an append at most that one more. -/
theorem attributed (h : Recovered db)
    (hr : ((primary concurrency db).restrict fun s l => awaiting s l).Reachable s) :
    (∀ l s' id, next s l = some s' →
      (Becomes s s' id .cancelled →
        id ∈ s.accepted ∨ ∃ handler, s.manager.pc = .write (.cancel id handler) .waiting) ∧
      (Becomes s s' id .completed → Returned s.runners id (.returned .succeeded)) ∧
      (Becomes s s' id .failed →
        ∃ failure, s'.db.board.verdict id = some ⟨.failed, some failure⟩ ∧
          (Returned s.runners id (.returned (.failed failure)) ∨
            Returned s.runners id .panicked ∧ failure = runnerPanickedFailure)) ∧
      (Becomes s s' id .interrupted → ∃ now failure origin writer,
        s.writer = ⟨.task (.recoverIncomplete now failure), origin⟩ :: writer)) ∧
    (∀ id, s.runners id = none → s.db.board.panel id = db.board.panel id) ∧
    ∀ id r, s.runners id = some r →
      s.db.board.panel id = r.acknowledged ++ s.manager.pc.committed id ∧
      (s.manager.pc.committed id ≠ [] →
        ∃ event, r.phase = .waiting event ∧ s.manager.pc.committed id = [event.entry]) := by
  have hf := (inductive_faithful h).reachable s hr
  refine ⟨fun l s' id hnext => ?_, fun id hn => ?_, fun id r hrun => ⟨?_, fun hc => ?_⟩⟩
  · have hs := step_of_next hnext
    exact ⟨hf.cancelled hs, hf.completed hs, hf.failed hs, hf.interrupted hs⟩
  · have hnil : s.manager.pc.committed id = [] := by
      by_contra hc
      obtain ⟨r, event, hrun, -⟩ := hf.committed hc
      rw [hn] at hrun
      cases hrun
    rw [hf.stored.panel, hn, hnil]
    simp
  · rw [hf.stored.panel, hf.stored.fresh id (by rw [hrun]; rfl), hrun]
    rfl
  · obtain ⟨r', event, hr', hp, he⟩ := hf.committed hc
    rw [hrun] at hr'
    cases hr'
    exact ⟨event, hp, he⟩

/-! ## A run -/

def samplePlan : RunnerEvent := .planUpdated ⟨1, []⟩

/-- A running task emits an event and is cancelled; its runner has returned
`Cancelled`, and the write of it is in the queue. -/
def sampleCancel : List Label :=
  sampleClaim ++
    [.runner sampleTask (.append samplePlan), .report sampleTask, .receive (.ok .epoch), .send,
     sampleWrite, .resume, .endTurn, .enter (.cancelTask sampleTask), .handler 1,
     .receive (.ok .epoch), .read true, .read true, .endTurn,
     .runner sampleTask (.finish .cancelled), .report sampleTask, .receive (.ok .epoch), .send]

theorem attributed_sample : ∃ s s' r,
    ((primary 4 sampleDb).restrict fun s l => awaiting s l).Reachable s ∧
    next s sampleWrite = some s' ∧ Becomes s s' sampleTask .cancelled ∧
    (sampleTask ∈ s.accepted ∨
      ∃ handler, s.manager.pc = .write (.cancel sampleTask handler) .waiting) ∧
    s.runners sampleTask = some r ∧ r.acknowledged = [samplePlan.entry] ∧
    s.db.board.panel sampleTask = r.acknowledged ++ s.manager.pc.committed sampleTask := by
  have hrun : (LTS.exec (LTS.guard (fun s l => awaiting s l) next) (.start 4 sampleDb)
      sampleCancel).bind (fun s => (next s sampleWrite).bind fun s' =>
        (s.runners sampleTask).map fun r =>
          (s.db.board.status sampleTask, s'.db.board.status sampleTask, r.acknowledged)) =
      some (some .running, some .cancelled, [samplePlan.entry]) := by decide +kernel
  obtain ⟨s, hs, hrun⟩ := Option.bind_eq_some_iff.1 hrun
  obtain ⟨s', hs', hrun⟩ := Option.bind_eq_some_iff.1 hrun
  obtain ⟨r, hr, heq⟩ := Option.map_eq_some_iff.1 hrun
  simp only [Prod.mk.injEq] at heq
  obtain ⟨hbefore, hafter, hack⟩ := heq
  have hreach : ((primary 4 sampleDb).restrict fun s l => awaiting s l).Reachable s :=
    LTS.reachable_of_exec_guard rfl hs
  have hb : Becomes s s' sampleTask .cancelled := ⟨by rw [hbefore]; decide, hafter⟩
  obtain ⟨hsteps, -, hpanel⟩ := attributed recovered_sampleDb hreach
  exact ⟨s, s', r, hreach, hs', hb, (hsteps _ _ _ hs').1 hb, hr, hack, (hpanel _ r hr).1⟩

end CodingAgent.L4.App
