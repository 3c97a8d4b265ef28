import CodingAgent.L4App.Coverage

/-!
# Scheduling (`coding-agent-app/src/task_manager.rs:576-734`)

The claims of the manager in an environment that may post any message, freeze
and cancel at any point, and write to the store itself, so that a claim may
lose any race.

* `Watched`: the primary with what has been observed of it: the snapshot of
  the scan, the tasks that got running and the runners that were spawned.
* `Ordered`: what a scan has passed is started or has no repository.
* `scheduling_sound`: the result.
-/
namespace CodingAgent.L4.App
open CodingAgent.L1.Domain CodingAgent.L2.Store

/-! ## The system -/

/-- What the rest of the process may do at any point. -/
inductive Outside where
  | post (message : TaskManagerMessage)
  /-- the first half of `freeze_and_cancel` -/
  | freeze
  /-- its second half -/
  | cancelRoot
  | execute (env : Env) (repositoryId : RepositoryId) (fails : Bool)
    (operation : StoreWriterOperation)

/-- mirrors crates/coding-agent-app/src/task_manager.rs:182-185 -/
def Outside.apply (s : Primary) : Outside → Primary
  | .post message => { s with mailbox := s.mailbox ++ [message] }
  | .freeze => { s with control := { s.control with frozen := true } }
  | .cancelRoot => { s with control := { s.control with cancelled := true } }
  | .execute env repositoryId fails operation =>
    { s with db := (operation.execute env repositoryId fails s.db).2 }

/-- The tasks that were queued in the one database and are running in the next. -/
def startedBy (db db' : Db) : List TaskId :=
  (db'.tasks.filter fun row => row.status = .running &&
    db.tasks.any fun r => r.id = row.id && r.status = .queued).map (·.id)

namespace ManagerPc

/-- The task whose runner is about to be spawned. -/
def spawning : ManagerPc → Option TaskId
  | .write (.claim _ _ _ _) (.runningCommitted task) => some task.id
  | _ => none

def looping : ManagerPc → Bool
  | .claimLoop .. => true
  | _ => false

end ManagerPc

/-- The runner a step spawns: the one the manager was about to, if it is back in
its loop. -/
def Primary.spawns (s s' : Primary) : List TaskId :=
  if s'.manager.pc.looping then s.manager.pc.spawning.toList else []

/-- The snapshot of the scan; until the read of a scan has returned, the one it
would return. -/
def Primary.scans (s : Primary) (scan : Option BootstrapSnapshot) : Option BootstrapSnapshot :=
  match s.manager.pc, bootstrapSnapshot s.db with
  | .claimRead, .ok (snapshot, _) => some snapshot
  | _, _ => scan

/-- The primary, and three ghosts. -/
structure Watched where
  primary : Primary
  scan : Option BootstrapSnapshot
  started : List TaskId
  spawned : List TaskId

def contendedNext (s : Primary) : Label ⊕ Outside → Option Primary
  | .inl l => next s l
  | .inr outside => some (outside.apply s)

def watchedNext (w : Watched) (l : Label ⊕ Outside) : Option Watched :=
  (contendedNext w.primary l).map fun s =>
    { primary := s
      scan := w.primary.scans w.scan
      started := w.started ++ startedBy w.primary.db s.db
      spawned := w.spawned ++ w.primary.spawns s }

def watched (concurrency : Nat) (db : Db) : LTS Watched (Label ⊕ Outside) :=
  LTS.ofFn (fun w => w = ⟨.start concurrency db, none, [], []⟩) watchedNext

theorem mem_startedBy {db db' : Db} {id : TaskId} : id ∈ startedBy db db' ↔
    (∃ row ∈ db.tasks, row.id = id ∧ row.status = .queued) ∧
      ∃ row ∈ db'.tasks, row.id = id ∧ row.status = .running := by
  simp only [startedBy, List.mem_map, List.mem_filter, Bool.and_eq_true, List.any_eq_true,
    decide_eq_true_eq]
  constructor
  · rintro ⟨row, ⟨hrow, hrun, old, hold, hid, hq⟩, rfl⟩
    exact ⟨⟨old, hold, hid, hq⟩, row, hrow, rfl, hrun⟩
  · rintro ⟨⟨old, hold, hid, hq⟩, row, hrow, rfl, hrun⟩
    exact ⟨row, ⟨hrow, hrun, old, hold, hid, hq⟩, rfl⟩

/-! ## The order of a scan -/

namespace ManagerPc

/-- What a scan has still to claim, with the repositories it knows. -/
def remaining : ManagerPc → Option (List Task × List Repository)
  | .claimLoop queue repositories => some (queue, repositories)
  | .write (.claim task _ rest repositories) _ => some (task :: rest, repositories)
  | _ => none

/-- The task of a claim that lost a race. -/
def refusedClaim : ManagerPc → Option TaskId
  | .write (.claim task _ _ _) (.replied (some (.transition (.conflict _)))) => some task.id
  | _ => none

@[simp] theorem reply_remaining (pc : ManagerPc) (reply : Option Reply) :
    (pc.reply reply).remaining = pc.remaining := by
  unfold ManagerPc.reply
  split
  · rename_i job
    cases job <;> rfl
  · rfl

end ManagerPc

/-- No repository of the scan is that of the task. -/
def Unregistered (repositories : List Repository) (task : Task) : Prop :=
  ∀ repository ∈ repositories, repository.id ≠ task.repositoryId

structure Ordered (scan : Option BootstrapSnapshot) (board : Board) (pc : ManagerPc) : Prop where
  passed : ∀ queue repositories, pc.remaining = some (queue, repositories) →
    ∃ snapshot passed, scan = some snapshot ∧ repositories = snapshot.repositories ∧
      claimQueue snapshot = passed ++ queue ∧
      ∀ task ∈ passed, Unregistered repositories task ∨ board.Started task.id
  refused : ∀ id, pc.refusedClaim = some id → board.Started id

namespace Ordered

variable {scan : Option BootstrapSnapshot} {board board' : Board} {pc pc' : ManagerPc}

/-- The manager leaves the scan. -/
theorem leave (hpc : pc'.remaining = none ∧ pc'.refusedClaim = none) : Ordered scan board pc' := by
  refine ⟨fun queue repositories hr => ?_, fun id hid => ?_⟩
  · rw [hpc.1] at hr
    cases hr
  · rw [hpc.2] at hid
    cases hid

/-- The claim in progress goes on. -/
theorem turn (h : Ordered scan board pc) (hr : pc'.remaining = pc.remaining)
    (hc : pc'.refusedClaim = none) : Ordered scan board pc' := by
  refine ⟨fun queue repositories he => h.passed _ _ (hr ▸ he), fun id hid => ?_⟩
  rw [hc] at hid
  cases hid

theorem mono (h : Ordered scan board pc) (hb : ∀ id, board.Started id → board'.Started id) :
    Ordered scan board' pc := by
  refine ⟨fun queue repositories hr => ?_, fun id hid => hb id (h.refused id hid)⟩
  obtain ⟨snapshot, passed, hscan, hrep, hqueue, hall⟩ := h.passed queue repositories hr
  exact ⟨snapshot, passed, hscan, hrep, hqueue, fun t ht => (hall t ht).imp_right (hb t.id)⟩

theorem scans {s : Primary} (h : Ordered scan board s.manager.pc) :
    Ordered (s.scans scan) board s.manager.pc := by
  unfold Primary.scans
  split
  · rename_i hpc _
    exact .leave (by rw [hpc]; exact ⟨rfl, rfl⟩)
  · exact h

/-- The scan passes a task. -/
theorem pass (h : Ordered scan board pc) {task : Task} {rest : List Task}
    {repositories : List Repository} (hr : pc.remaining = some (task :: rest, repositories))
    (ht : Unregistered repositories task ∨ board.Started task.id) :
    Ordered scan board (.claimLoop rest repositories) := by
  refine ⟨fun queue repositories' he => ?_, fun id hid => by cases hid⟩
  cases he
  obtain ⟨snapshot, passed, hscan, hrep, hqueue, hall⟩ := h.passed _ _ hr
  refine ⟨snapshot, passed ++ [task], hscan, hrep, by simp [hqueue], fun t hmem => ?_⟩
  rcases List.mem_append.1 hmem with hmem | hmem
  · exact hall t hmem
  · rwa [List.mem_singleton.1 hmem]

end Ordered

section
variable {s s' : Primary} {l : Label}

theorem ordered_step {scan : Option BootstrapSnapshot} (hs : Step s l s')
    (hstore : ∃ log, Reflects s.db log) (hl : Linked s.writer s.manager.pc)
    (hscan : Scans s.db.board s.runners s.manager.pc)
    (hentries : ∀ id ∈ s.manager.active, (s.runners id).isSome ∨ s.manager.pc.claimed = some id)
    (h : Ordered scan s.db.board s.manager.pc) :
    Ordered (s.scans scan) s'.db.board s'.manager.pc := by
  replace h := h.scans
  have keep : ∀ id, s.db.board.Started id → s'.db.board.Started id :=
    fun id => step_started hs hstore
  cases hs with
  | wroteCoordinator hw hx | wroteHandler hw hx => exact h.mono keep
  | @wroteManager env repositoryId fails operation writer outcome db hw hx =>
    obtain ⟨-, hwrote⟩ := execute_wrote hstore hx
    have hm := h.mono keep
    refine ⟨fun queue repositories hr => ?_, fun id hid => ?_⟩
    · rw [goto_pc, ManagerPc.reply_remaining] at hr
      exact hm.passed queue repositories hr
    · rw [hw] at hl
      obtain ⟨job, hpc, rfl, -⟩ := hl.head
      rw [goto_pc, hpc] at hid
      change (ManagerPc.write job (.replied (outcome.bind (·.reply?)))).refusedClaim = some id at hid
      unfold ManagerPc.refusedClaim at hid
      split at hid
      · rename_i task repository rest repositories current heq
        cases hid
        simp only [ManagerPc.write.injEq, WriteStage.replied.injEq] at heq
        obtain ⟨rfl, hrep⟩ := heq
        rw [hrep] at hwrote
        obtain ⟨-, -, hst, hne⟩ := hwrote.conflict
        exact keep task.id ⟨current.status, hst, hne⟩
      · cases hid
  | scanned hpc hsnap =>
    refine ⟨fun queue repositories he => ?_, fun id hid => by cases hid⟩
    cases he
    refine ⟨_, [], ?_, rfl, rfl, List.forall_mem_nil _⟩
    simp only [Primary.scans, hpc, hsnap]
  | @claimSkipped senderOpen task rest repositories hpc hwhy =>
    rw [hpc] at h hscan hentries
    refine h.pass rfl ?_
    rcases hwhy with ha | hnone
    · -- an entry outside a claim is that of a runner, so the task is started
      exact .inr (hscan.started _ ((hentries _ ha).resolve_right nofun))
    · refine .inl fun repository hmem hid => ?_
      have := List.find?_eq_none.1 hnone repository hmem
      simp [hid] at this
  | claimStarted hpc => exact h.turn (by rw [hpc]; rfl) rfl
  | claimChecked hpc hst =>
    rcases hst with ⟨rfl, rfl⟩ | ⟨rfl, rfl⟩ <;> exact h.turn (by rw [hpc]; rfl) rfl
  | claimCommitted hpc => exact h.turn (by rw [hpc]; rfl) rfl
  | @claimSpawned task current repository rest repositories hpc =>
    rw [hpc] at h hscan
    exact h.pass rfl (.inr (hscan.claim task current rfl).2)
  | @claimConflict task current repository rest repositories hpc =>
    rw [hpc] at h
    exact h.pass rfl (.inr (h.refused task.id rfl))
  | @sent job hpc => exact h.turn (by rw [hpc]; cases job <;> rfl) (by cases job <;> rfl)
  | notified | ticked | turnEnded | scanStarted | cancelRejected | cancelStarted | appendRejected
  | appendStarted | finishIgnored | finishDropped | finishStarted | finalizeRejected | finalized
  | quiesceRejected | quiesceRefused | quiesceStarted | scanStopped | claimAborted | claimDropped
  | claimFailed | cancelAnswered | cancelQueued | cancelAccepted | appended | appendFailed
  | finished | finishFailed | quiesced =>
    exact .leave ⟨rfl, rfl⟩
  | _ => exact h

/-! ## Entries -/

/-- Every entry is that of a runner or of the claim in progress. -/
def Entered (active : List TaskId) (runners : TaskId → Option Runner) (pc : ManagerPc) : Prop :=
  ∀ id ∈ active, (runners id).isSome ∨ pc.claimed = some id

namespace Entered

variable {active active' : List TaskId} {runners runners' : TaskId → Option Runner}
  {pc pc' : ManagerPc}

/-- A turn after which only entries of runners are left. -/
theorem turn (h : Entered active runners pc)
    (hr : ∀ id, (runners id).isSome → (runners' id).isSome)
    (ha : ∀ id ∈ active', id ∈ active ∧ pc.claimed ≠ some id) : Entered active' runners' pc' := by
  intro id hid
  obtain ⟨hold, hne⟩ := ha id hid
  exact .inl (hr id ((h id hold).resolve_right hne))

/-- The claim in progress goes on. -/
theorem same (h : Entered active runners pc) (hpc : pc'.claimed = pc.claimed) :
    Entered active runners pc' :=
  fun id hid => (h id hid).imp_right fun hc => hpc.trans hc

end Entered

theorem put_isSome {runners : TaskId → Option Runner} {id : TaskId} {r : Runner} (x : TaskId)
    (hx : (runners x).isSome) : (put runners id (some r) x).isSome := by
  by_cases hid : x = id
  · rw [hid, put_self]
    rfl
  · rwa [put_ne hid]

theorem isSome_replyAppend {taskId : TaskId} {event : RunnerEvent} {awaited : Bool}
    {result : AppendResult} (x : TaskId) (hx : (s.runners x).isSome) :
    ((s.replyAppend taskId event awaited result).runners x).isSome := by
  simp only [Primary.replyAppend]
  split
  · by_cases hid : x = taskId
    · rw [hid, put_self, Option.isSome_map]
      rwa [hid] at hx
    · rwa [put_ne hid]
  · exact hx

theorem answering_claimed {pc : ManagerPc} (h : pc.answering = true) : pc.claimed = none := by
  unfold ManagerPc.answering at h
  split at h <;> first | rfl | cases h

theorem entered_step (hs : Step s l s') {concurrency : Nat} (hslots : Slots concurrency s.manager)
    (hscan : Scans s.db.board s.runners s.manager.pc)
    (h : Entered s.manager.active s.runners s.manager.pc) :
    Entered s'.manager.active s'.runners s'.manager.pc := by
  -- the entry of a claim that ends is dropped
  have dropped : ∀ {task : TaskId}, s.manager.pc.claimed = some task →
      ∀ id ∈ s.manager.active.erase task, id ∈ s.manager.active ∧ s.manager.pc.claimed ≠ some id := by
    intro task hc id hid
    refine ⟨List.mem_of_mem_erase hid, fun heq => ?_⟩
    obtain rfl := Option.some.inj (hc.symm.trans heq)
    exact hslots.nodup.not_mem_erase hid
  cases hs with
  | wroteManager hw hx => exact h.same (ManagerPc.reply_claimed _ _)
  | notified hpc | ticked hpc | turnEnded hpc | scanStarted hpc | cancelRejected hpc
  | cancelStarted hpc | appendStarted hpc | finishIgnored hpc | finishStarted hpc
  | finalizeRejected hpc | finalized hpc | quiesceRejected hpc | quiesceRefused hpc
  | quiesceStarted hpc | scanned hpc | claimSkipped hpc | cancelQueued hpc | quiesced hpc =>
    exact h.turn (fun _ => id) fun id hid => ⟨hid, by rw [hpc]; nofun⟩
  | scanStopped hpc =>
    refine h.turn (fun _ => id) fun id hid => ⟨hid, ?_⟩
    rcases hpc with hpc | ⟨queue, repositories, hpc⟩ <;> rw [hpc] <;> nofun
  | cancelAnswered hc =>
    refine h.turn (fun _ => id) fun id hid => ⟨hid, ?_⟩
    rw [answering_claimed hc]
    nofun
  | cancelAccepted ht =>
    refine h.turn (fun _ => id) fun id hid => ⟨hid, ?_⟩
    rw [answering_claimed (cancelTarget_answering ht)]
    nofun
  | appendRejected hpc | appended hpc | appendFailed hpc =>
    exact h.turn isSome_replyAppend fun id hid => ⟨hid, by rw [hpc]; nofun⟩
  | finishDropped hpc | finished hpc | finishFailed hpc =>
    exact h.turn (fun _ => id) fun id hid => ⟨List.mem_of_mem_erase hid, by rw [hpc]; nofun⟩
  | @claimStarted senderOpen task rest repositories repository hpc =>
    intro id hid
    rcases List.mem_cons.1 hid with rfl | hid
    · exact .inr rfl
    · refine .inl ((h id hid).resolve_right ?_)
      rw [hpc]
      nofun
  | claimChecked hpc | claimCommitted hpc => exact h.same (by rw [hpc]; rfl)
  | @sent job hpc => exact h.same (by rw [hpc]; cases job <;> rfl)
  | claimAborted hpc | claimConflict hpc | claimFailed hpc =>
    exact h.turn (fun _ => id) (dropped (by rw [hpc]; rfl))
  | @claimDropped task current repository rest repositories eventId hpc =>
    obtain ⟨hid, -⟩ := hscan.claim task current (by rw [hpc]; rfl)
    refine h.turn (fun _ => id) ?_
    show ∀ id ∈ s.manager.active.erase current.id, _
    rw [hid]
    exact dropped (by rw [hpc]; rfl)
  | @claimSpawned task current repository rest repositories hpc =>
    obtain ⟨hid, -⟩ := hscan.claim task current (by rw [hpc]; rfl)
    intro id hmem
    rcases h id hmem with hr | hc
    · exact .inl (put_isSome id hr)
    · rw [hpc] at hc
      cases hc
      left
      show (put s.runners current.id _ task.id).isSome
      rw [hid, put_self]
      rfl
  | acted hr | reportedEvent hr | reportedEnd hr => exact fun id hid => (h id hid).imp_left (put_isSome id)
  | _ => exact h

/-! ## Spawned runners -/

theorem spawns_of_not_looping (h : s'.manager.pc.looping = false) : s.spawns s' = [] := by
  simp [Primary.spawns, h]

theorem spawns_of_not_spawning (h : s.manager.pc.spawning = none) : s.spawns s' = [] := by
  simp [Primary.spawns, h]

theorem spawns_same (h : s'.manager.pc = s.manager.pc) : s.spawns s' = [] := by
  cases hl : s'.manager.pc.looping with
  | false => exact spawns_of_not_looping hl
  | true =>
    rw [h] at hl
    apply spawns_of_not_spawning
    unfold ManagerPc.looping at hl
    split at hl
    · rename_i hpc
      rw [hpc]
      rfl
    · cases hl

/-- A runner appears where it is spawned, and none goes. -/
theorem spawned_step (hs : Step s l s') (id : TaskId) :
    (s'.runners id).isSome ↔ (s.runners id).isSome ∨ id ∈ s.spawns s' := by
  have keep : (∀ x, (s'.runners x).isSome ↔ (s.runners x).isSome) → s.spawns s' = [] →
      ((s'.runners id).isSome ↔ (s.runners id).isSome ∨ id ∈ s.spawns s') := by
    intro hr hnil
    rw [hr, hnil]
    simp
  cases hs with
  | wroteManager =>
    refine keep (fun _ => Iff.rfl) ?_
    by_cases hpc : ∃ job, s.manager.pc = .write job .waiting
    · obtain ⟨job, hpc⟩ := hpc
      exact spawns_of_not_spawning (by rw [hpc]; cases job <;> rfl)
    · refine spawns_same ?_
      rw [goto_pc]
      unfold ManagerPc.reply
      split
      · rename_i job heq
        exact absurd ⟨job, heq⟩ hpc
      · rfl
  | notified | ticked | turnEnded | scanStarted | cancelRejected | cancelStarted | appendStarted
  | finishIgnored | finishDropped | finishStarted | finalizeRejected | finalized | quiesceRejected
  | quiesceRefused | quiesceStarted | scanStopped | claimStarted | claimChecked | claimAborted
  | sent | claimDropped | claimCommitted | claimFailed | cancelAnswered | cancelQueued
  | cancelAccepted | finished | finishFailed | quiesced =>
    exact keep (fun _ => Iff.rfl) (spawns_of_not_looping rfl)
  | scanned hpc | claimSkipped hpc | claimConflict hpc =>
    exact keep (fun _ => Iff.rfl) (spawns_of_not_spawning (by rw [hpc]; rfl))
  | appendRejected | appended | appendFailed =>
    exact keep (fun x => ⟨replyAppend_isSome x, isSome_replyAppend x⟩) (spawns_of_not_looping rfl)
  | @claimSpawned task current repository rest repositories hpc =>
    show (put s.runners current.id _ id).isSome ↔ _
    simp only [Primary.spawns, hpc, ManagerPc.spawning, goto_pc, ManagerPc.looping, if_true,
      Option.toList_some, List.mem_singleton]
    by_cases hid : id = current.id
    · simp [hid]
    · rw [put_ne hid]
      simp [hid]
  | acted hr | reportedEvent hr | reportedEnd hr =>
    exact keep (fun x => ⟨put_some_isSome hr x, put_isSome x⟩) (spawns_same rfl)
  | _ => exact keep (fun _ => Iff.rfl) (spawns_same rfl)

/-- Only the write of a claim makes it an applied one, and that starts its task. -/
theorem claimReply_step (hs : Step s l s') (hstore : ∃ log, Reflects s.db log)
    (hl : Linked s.writer s.manager.pc) {task current : Task}
    (hc : s'.manager.pc.claimReply = some (task, current)) :
    s.manager.pc.claimReply = some (task, current) ∨ task.id ∈ startedBy s.db s'.db := by
  cases hs with
  | @wroteManager env repositoryId fails operation writer outcome db hw hx =>
    obtain ⟨⟨log, hlog⟩, hwrote⟩ := execute_wrote hstore hx
    rw [hw] at hl
    obtain ⟨job, hpc, rfl, -⟩ := hl.head
    rw [goto_pc, hpc] at hc
    obtain ⟨repository, rest, repositories, eventId, rfl, hrep⟩ := ManagerPc.reply_claimReply hc
    rw [hrep] at hwrote
    obtain ⟨hq, -, -, hset⟩ := hwrote.applied
    refine .inr (mem_startedBy.2 ⟨row_of_status hq, row_of_status ?_⟩)
    rw [hset, Board.set_status, if_pos rfl]
    rfl
  | claimCommitted hpc =>
    left
    rw [hpc]
    exact hc
  | claimChecked hpc hst => rcases hst with ⟨rfl, rfl⟩ | ⟨rfl, rfl⟩ <;> cases hc
  | @sent job hpc => cases job <;> cases hc
  | notified | ticked | turnEnded | scanStarted | cancelRejected | cancelStarted | appendRejected
  | appendStarted | finishIgnored | finishDropped | finishStarted | finalizeRejected | finalized
  | quiesceRejected | quiesceRefused | quiesceStarted | scanStopped | scanned | claimSkipped
  | claimStarted | claimAborted | claimDropped | claimSpawned | claimConflict | claimFailed
  | cancelAnswered | cancelQueued | cancelAccepted | appended | appendFailed | finished
  | finishFailed | quiesced =>
    cases hc
  | _ => exact .inl hc

/-! ## What a step does -/

theorem claimOrder_trans {a b c : Task} (h : claimOrder a b) (h' : claimOrder b c) :
    claimOrder a c := by
  unfold claimOrder at *
  omega

theorem claimOrder_total (a b : Task) : claimOrder a b ∨ claimOrder b a := by
  unfold claimOrder
  omega

instance : Std.Total claimOrder := ⟨claimOrder_total⟩

instance : IsTrans Task claimOrder := ⟨fun _ _ _ => claimOrder_trans⟩

theorem claimOrder_antisymm {a b : Task} (h : claimOrder a b) (h' : claimOrder b a) :
    a.id = b.id := by
  have huuid : a.id.uuid.toNat = b.id.uuid.toNat := by
    unfold claimOrder at *
    omega
  exact congrArg TaskId.mk (BitVec.eq_of_toNat_eq huuid)

theorem claimQueue_sorted (snapshot : BootstrapSnapshot) :
    (claimQueue snapshot).Pairwise claimOrder := List.pairwise_insertionSort ..

theorem mem_claimQueue {snapshot : BootstrapSnapshot} {task : Task} :
    task ∈ claimQueue snapshot ↔ task ∈ snapshot.tasks ∧ task.status = .queued := by
  simp [claimQueue, List.mem_insertionSort]

/-- What a task that gets running has before it in its scan is not queued. -/
def InOrder (scan : Option BootstrapSnapshot) (db : Db) (id : TaskId) : Prop :=
  ∃ snapshot task, scan = some snapshot ∧ task ∈ snapshot.tasks ∧ task.id = id ∧
    task.status = .queued ∧ ∀ earlier ∈ snapshot.tasks, earlier.status = .queued →
      (∃ repository ∈ snapshot.repositories, repository.id = earlier.repositoryId) →
      claimOrder earlier task → earlier.id ≠ id →
      ∀ row ∈ db.tasks, row.id = earlier.id → row.status ≠ .queued

theorem order_step {scan : Option BootstrapSnapshot} (hs : Step s l s')
    (hstore : ∃ log, Reflects s.db log) (hl : Linked s.writer s.manager.pc)
    (h : Ordered scan s.db.board s.manager.pc) {id : TaskId} (hid : id ∈ startedBy s.db s'.db) :
    InOrder scan s'.db id := by
  obtain ⟨⟨row, hrow, rfl, hq⟩, row', hrow', hid', hrun⟩ := mem_startedBy.1 hid
  obtain ⟨log', hlog'⟩ := (step_wrote hs hstore).1
  -- only the claim in progress can have started the task
  have hclaimed : s.manager.pc.claimed = some row.id := by
    by_contra hne
    obtain ⟨log, hlog⟩ := hstore
    refine step_not_running hs ⟨log, hlog⟩ hl hne ?_ ?_
    · rw [board_row hlog hrow, hq]
      nofun
    · rw [← hid', board_row hlog' hrow', hrun]
  obtain ⟨task, rest, repositories, hrem, hsame⟩ : ∃ task rest repositories,
      s.manager.pc.remaining = some (task :: rest, repositories) ∧ task.id = row.id := by
    unfold ManagerPc.claimed at hclaimed
    split at hclaimed
    · rename_i task repository rest repositories stage heq
      exact ⟨task, rest, repositories, by rw [heq]; rfl, Option.some.inj hclaimed⟩
    · cases hclaimed
  obtain ⟨snapshot, passed, hscan, rfl, hqueue, hall⟩ := h.passed _ _ hrem
  have hmem : task ∈ claimQueue snapshot := by
    rw [hqueue]
    exact List.mem_append_right _ List.mem_cons_self
  obtain ⟨htask, hstatus⟩ := mem_claimQueue.1 hmem
  refine ⟨snapshot, task, hscan, htask, hsame, hstatus, ?_⟩
  intro earlier hearlier hqueued hregistered hbefore hother
  have hsorted := claimQueue_sorted snapshot
  have hpassed : earlier ∈ passed := by
    have hin := mem_claimQueue.2 ⟨hearlier, hqueued⟩
    rw [hqueue] at hin hsorted
    rcases List.mem_append.1 hin with hin | hin
    · exact hin
    · rcases List.mem_cons.1 hin with rfl | hin
      · exact absurd hsame hother
      · have hafter := List.rel_of_pairwise_cons (List.pairwise_append.1 hsorted).2.1 hin
        exact absurd ((claimOrder_antisymm hbefore hafter).trans hsame) hother
  rcases hall earlier hpassed with hnone | hstarted
  · obtain ⟨repository, hrepository, heq⟩ := hregistered
    exact absurd heq (hnone repository hrepository)
  · intro r hr hrid hqueued
    obtain ⟨status, hst, hne⟩ := step_started hs hstore hstarted
    rw [← hrid, board_row hlog' hr] at hst
    exact hne ((Option.some.inj hst).symm.trans hqueued)

/-- The root token stays cancelled. -/
theorem cancelled_step (hs : Step s l s') (h : s.control.cancelled = true) :
    s'.control.cancelled = true := by
  cases hs with
  | rootCancelled => rfl
  | _ => exact h

/-- A claim ends with a runner, or without its entry and its permit. -/
theorem attempt_step (hs : Step s l s') {concurrency : Nat} (hslots : Slots concurrency s.manager)
    (hmode : Modes s.manager s.control) (hscan : Scans s.db.board s.runners s.manager.pc)
    {id : TaskId} (hc : s.manager.pc.claimed = some id) (hend : s'.manager.pc.claimed ≠ some id) :
    (s.spawns s' = [id] ∧ id ∈ s'.manager.active) ∨
      (s.spawns s' = [] ∧ id ∉ s'.manager.active ∧
        s'.manager.permits = s.manager.permits + 1) := by
  have hmem := hmode.claimed id hc
  -- the entry goes and its permit comes back
  have released : ∀ {pc : ManagerPc}, s'.manager = (s.manager.removeActive id).goto pc →
      s.spawns s' = [] → (s.spawns s' = [id] ∧ id ∈ s'.manager.active) ∨
        (s.spawns s' = [] ∧ id ∉ s'.manager.active ∧
          s'.manager.permits = s.manager.permits + 1) := by
    intro pc hm hnil
    refine .inr ⟨hnil, ?_, ?_⟩
    · rw [hm]
      exact hslots.nodup.not_mem_erase
    · rw [hm]
      exact if_pos hmem
  cases hs with
  | wroteManager hw hx => exact absurd ((ManagerPc.reply_claimed _ _).trans hc) hend
  | claimChecked hpc | claimCommitted hpc =>
    rw [hpc] at hc
    exact absurd hc hend
  | @sent job hpc =>
    rw [hpc] at hc
    cases job <;> exact absurd hc hend
  | claimAborted hpc | claimFailed hpc =>
    rw [hpc] at hc
    cases hc
    exact released rfl (spawns_of_not_looping rfl)
  | claimConflict hpc =>
    rw [hpc] at hc
    cases hc
    exact released rfl (spawns_of_not_spawning (by rw [hpc]; rfl))
  | @claimDropped task current repository rest repositories eventId hpc =>
    obtain ⟨hid, -⟩ := hscan.claim task current (by rw [hpc]; rfl)
    rw [hpc] at hc
    cases hc
    exact released (congrArg (fun x => (s.manager.removeActive x).goto .idle) hid)
      (spawns_of_not_looping rfl)
  | @claimSpawned task current repository rest repositories hpc =>
    obtain ⟨hid, -⟩ := hscan.claim task current (by rw [hpc]; rfl)
    rw [hpc] at hc
    cases hc
    refine .inl ⟨?_, hmem⟩
    simp only [Primary.spawns, hpc, ManagerPc.spawning, goto_pc, ManagerPc.looping, if_true,
      Option.toList_some, hid]
  | notified hpc | ticked hpc | turnEnded hpc | scanStarted hpc | cancelRejected hpc
  | cancelStarted hpc | appendRejected hpc | appendStarted hpc | finishIgnored hpc
  | finishDropped hpc | finishStarted hpc | finalizeRejected hpc | finalized hpc
  | quiesceRejected hpc | quiesceRefused hpc | quiesceStarted hpc | scanned hpc | claimSkipped hpc
  | claimStarted hpc | cancelQueued hpc | appended hpc | appendFailed hpc | finished hpc
  | finishFailed hpc | quiesced hpc =>
    rw [hpc] at hc
    cases hc
  | scanStopped hpc =>
    rcases hpc with hpc | ⟨queue, repositories, hpc⟩ <;> rw [hpc] at hc <;> cases hc
  | cancelAnswered hans =>
    rw [answering_claimed hans] at hc
    cases hc
  | cancelAccepted ht =>
    rw [answering_claimed (cancelTarget_answering ht)] at hc
    cases hc
  | _ => exact absurd hc hend

end

/-! ## Runs -/

structure Scheduled (concurrency : Nat) (w : Watched) : Prop where
  store : ∃ log, Reflects w.primary.db log
  slots : Slots concurrency w.primary.manager
  modes : Modes w.primary.manager w.primary.control
  linked : Linked w.primary.writer w.primary.manager.pc
  scans : Scans w.primary.db.board w.primary.runners w.primary.manager.pc
  ordered : Ordered w.scan w.primary.db.board w.primary.manager.pc
  entered : Entered w.primary.manager.active w.primary.runners w.primary.manager.pc
  runners : ∀ id, id ∈ w.spawned ↔ (w.primary.runners id).isSome
  once : w.spawned.Nodup
  committed : ∀ id ∈ w.spawned, id ∈ w.started
  claim : ∀ task current, w.primary.manager.pc.claimReply = some (task, current) →
    task.id ∈ w.started

variable {concurrency : Nat} {w w' : Watched}

theorem scheduled_start {db : Db} (h : ∃ log, Reflects db log) :
    Scheduled concurrency ⟨.start concurrency db, none, [], []⟩ where
  store := h
  slots := ⟨Nat.add_zero _, List.nodup_nil⟩
  modes := ⟨id, fun _ => rfl, fun hq => (by cases hq), fun _ hc => (by cases hc)⟩
  linked := ⟨rfl, fun _ hc => absurd hc List.not_mem_nil, fun _ hc => absurd hc List.not_mem_nil⟩
  scans := ⟨fun _ hr => (by cases hr), fun _ hid => absurd hid List.not_mem_nil, List.nodup_nil,
    fun _ _ hc => (by cases hc)⟩
  ordered := .leave ⟨rfl, rfl⟩
  entered := fun _ hid => absurd hid List.not_mem_nil
  runners := fun _ => ⟨fun hid => absurd hid List.not_mem_nil, fun hr => (by cases hr)⟩
  once := List.nodup_nil
  committed := fun _ hid => absurd hid List.not_mem_nil
  claim := fun _ _ hc => by cases hc

/-- A runner that is spawned is the first one of a task that was started. -/
theorem Scheduled.spawns (h : Scheduled concurrency w) (s' : Primary) :
    (w.primary.spawns s').Nodup ∧
      ∀ id ∈ w.primary.spawns s', id ∉ w.spawned ∧ id ∈ w.started := by
  unfold Primary.spawns
  split
  · unfold ManagerPc.spawning
    split
    · rename_i task repository rest repositories current hpc
      obtain ⟨hid, -⟩ := h.scans.claim task current (by rw [hpc]; rfl)
      have hfresh := h.scans.fresh task.id (by rw [hpc]; exact List.mem_cons_self)
      refine ⟨List.nodup_singleton _, fun id hmem => ?_⟩
      obtain rfl := List.mem_singleton.1 hmem
      rw [hid, h.runners, hfresh]
      exact ⟨nofun, h.claim task current (by rw [hpc]; rfl)⟩
    · exact ⟨List.nodup_nil, fun _ hmem => absurd hmem List.not_mem_nil⟩
  · exact ⟨List.nodup_nil, fun _ hmem => absurd hmem List.not_mem_nil⟩

theorem scheduled_step {l : Label ⊕ Outside} (hs : watchedNext w l = some w')
    (h : Scheduled concurrency w) : Scheduled concurrency w' := by
  obtain ⟨s', hnext, rfl⟩ := Option.map_eq_some_iff.1 hs
  obtain ⟨hnodup, hspawns⟩ := h.spawns s'
  have once : (w.spawned ++ w.primary.spawns s').Nodup :=
    List.nodup_append.2 ⟨h.once, hnodup, fun a ha b hb heq => (hspawns b hb).1 (heq ▸ ha)⟩
  have committed : ∀ id ∈ w.spawned ++ w.primary.spawns s',
      id ∈ w.started ++ startedBy w.primary.db s'.db := by
    intro id hid
    rcases List.mem_append.1 hid with hid | hid
    · exact List.mem_append_left _ (h.committed id hid)
    · exact List.mem_append_left _ (hspawns id hid).2
  cases l with
  | inl l =>
    have hstep := step_of_next hnext
    exact {
      store := (step_wrote hstep h.store).1
      slots := slots_step hstep h.slots
      modes := modes_step hstep h.modes
      linked := linked_step hstep h.linked
      scans := scans_step hstep h.store h.linked h.scans
      ordered := ordered_step hstep h.store h.linked h.scans h.entered h.ordered
      entered := entered_step hstep h.slots h.scans h.entered
      runners := fun id => by
        rw [List.mem_append, spawned_step hstep id, h.runners]
      once
      committed
      claim := fun task current hc =>
        (claimReply_step hstep h.store h.linked hc).elim
          (fun hc => List.mem_append_left _ (h.claim task current hc))
          (List.mem_append_right _) }
  | inr outside =>
    obtain rfl := Option.some.inj hnext
    have hsame : w.primary.spawns (outside.apply w.primary) = [] := by
      apply spawns_same
      cases outside <;> rfl
    have runners : ∀ id, id ∈ w.spawned ++ w.primary.spawns (outside.apply w.primary) ↔
        (w.primary.runners id).isSome := by
      intro id
      rw [hsame, List.append_nil]
      exact h.runners id
    have claim : ∀ task current, w.primary.manager.pc.claimReply = some (task, current) →
        task.id ∈ w.started ++ startedBy w.primary.db (outside.apply w.primary).db :=
      fun task current hc => List.mem_append_left _ (h.claim task current hc)
    cases outside with
    | post message =>
      exact ⟨h.store, h.slots, h.modes, h.linked, h.scans, h.ordered.scans, h.entered, runners, once,
        committed, claim⟩
    | cancelRoot =>
      exact ⟨h.store, h.slots, { h.modes with }, h.linked, h.scans, h.ordered.scans, h.entered,
        runners, once, committed, claim⟩
    | freeze =>
      exact ⟨h.store, h.slots, { h.modes with frozen := fun _ => rfl }, h.linked, h.scans,
        h.ordered.scans, h.entered, runners, once, committed, claim⟩
    | execute env repositoryId fails operation =>
      obtain ⟨hlog, hwrote⟩ := execute_wrote h.store
        (Prod.eta (operation.execute env repositoryId fails w.primary.db)).symm
      exact ⟨hlog, h.slots, h.modes, h.linked, h.scans.mono (fun _ => hwrote.started) fun _ => id,
        h.ordered.scans.mono fun _ => hwrote.started, h.entered, runners, once, committed, claim⟩

theorem inductive_scheduled {db : Db} (h : ∃ log, Reflects db log) :
    (watched concurrency db).Inductive (Scheduled concurrency) where
  init _ hi := hi ▸ scheduled_start h
  step _ _ _ hs hstep := scheduled_step hstep hs

/-! ## The result -/

/-- What holds in every state. -/
structure SchedulingState (concurrency : Nat) (w : Watched) : Prop where
  /-- one runner for a task, after its commit -/
  once : w.spawned.Nodup
  committed : ∀ id ∈ w.spawned, id ∈ w.started
  spawned : ∀ id, id ∈ w.spawned ↔ (w.primary.runners id).isSome
  permits : w.primary.manager.permits + w.primary.manager.active.length = concurrency
  holders : (w.primary.manager.active.filter fun id => id ∈ w.spawned).length ≤ concurrency
  /-- an entry is that of a runner or of the claim in progress -/
  entries : ∀ id ∈ w.primary.manager.active,
    id ∈ w.spawned ∨ w.primary.manager.pc.claimed = some id

/-- What holds of every step. -/
structure SchedulingStep (w : Watched) (l : Label ⊕ Outside) (w' : Watched) : Prop where
  order : ∀ own, l = .inl own → ∀ id ∈ startedBy w.primary.db w'.primary.db,
    InOrder w.scan w'.primary.db id
  /-- both halves of `freeze_and_cancel` have been done -/
  cancelled : w.primary.control = ⟨true, true⟩ → ∀ id ∈ w.primary.spawns w'.primary,
    w'.primary.isCancelled id = true
  attempt : ∀ id, w.primary.manager.pc.claimed = some id →
    w'.primary.manager.pc.claimed ≠ some id →
    (w'.spawned = w.spawned ++ [id] ∧ id ∈ w'.primary.manager.active) ∨
      (w'.spawned = w.spawned ∧ id ∉ w'.primary.manager.active ∧
        w'.primary.manager.permits = w.primary.manager.permits + 1)

/-- **Scheduling.** Over any messages, ticks, races, errors of the writer and
freezes: a task gets at most one runner, after its commit; a task gets running
only when no earlier one of its scan is left queued; the entries and the
permits add up; a runner spawned after the freeze has its token cancelled; and a
claim without a runner leaves no entry and no permit. -/
theorem scheduling_sound {db : Db} (h : ∃ log, Reflects db log)
    (hr : (watched concurrency db).Reachable w) : SchedulingState concurrency w ∧
      ∀ l w', (watched concurrency db).step w l w' → SchedulingStep w l w' := by
  have hs := (inductive_scheduled h).reachable w hr
  have htotal := hs.slots.total
  constructor
  · refine ⟨hs.once, hs.committed, hs.runners, htotal, ?_, fun id hid => ?_⟩
    · have := List.length_filter_le (fun id => decide (id ∈ w.spawned)) w.primary.manager.active
      omega
    · exact (hs.entered id hid).imp_left (hs.runners id).2
  · intro l w' hstep
    obtain ⟨s', hnext, rfl⟩ := Option.map_eq_some_iff.1 hstep
    refine ⟨?_, ?_, ?_⟩
    · rintro own rfl id hid
      exact order_step (step_of_next hnext) hs.store hs.linked hs.ordered hid
    · intro hcontrol id hid
      have hroot : w.primary.control.cancelled = true := by rw [hcontrol]
      have hkept : s'.control.cancelled = true := by
        cases l with
        | inl l => exact cancelled_step (step_of_next hnext) hroot
        | inr outside =>
          obtain rfl := Option.some.inj hnext
          cases outside <;> first | exact hroot | rfl
      simp [Primary.isCancelled, hkept]
    · intro id hc hend
      cases l with
      | inl l =>
        rcases attempt_step (step_of_next hnext) hs.slots hs.modes hs.scans hc hend with
          ⟨hspawn, hmem⟩ | ⟨hnil, hout⟩
        · exact .inl ⟨by rw [hspawn], hmem⟩
        · exact .inr ⟨by rw [hnil, List.append_nil], hout⟩
      | inr outside =>
        obtain rfl := Option.some.inj hnext
        refine absurd ?_ hend
        cases outside <;> exact hc

/-- A claim is frozen out after its last look at the flag. -/
def sampleLateFreeze : List (Label ⊕ Outside) :=
  (sampleClaim.take 13).map .inl ++ [.inr .freeze, .inr .cancelRoot, .inl .resume]

theorem scheduling_sound_sample : ∃ w, (watched 4 sampleDb).Reachable w ∧
    w.spawned = [sampleTask] ∧ w.primary.control = ⟨true, true⟩ ∧
    w.primary.isCancelled sampleTask = true ∧ SchedulingState 4 w := by
  have hrun : (LTS.exec watchedNext ⟨.start 4 sampleDb, none, [], []⟩ sampleLateFreeze).map
      (fun w => (w.spawned, w.primary.control, w.primary.isCancelled sampleTask)) =
      some ([sampleTask], ⟨true, true⟩, true) := by decide +kernel
  obtain ⟨w, hw, heq⟩ := Option.map_eq_some_iff.1 hrun
  simp only [Prod.mk.injEq] at heq
  have hr : (watched 4 sampleDb).Reachable w := LTS.reachable_of_exec rfl hw
  exact ⟨w, hr, heq.1, heq.2.1, heq.2.2, (scheduling_sound ⟨[], reflects_migrated _⟩ hr).1⟩

end CodingAgent.L4.App
