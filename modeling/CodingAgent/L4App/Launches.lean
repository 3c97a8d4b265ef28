import CodingAgent.L4App.CleanShutdown
import CodingAgent.L4App.Scheduling
import CodingAgent.L4App.SingleInstance

/-!
# Launches over one store (`coding-agent-app/src/single_instance.rs:795-955`)

The processes of all launches on the same paths, over the one database file.
The launches are those of `SingleInstance`. One that has recovered the store
gets a primary when its components are spawned, and the primary takes its steps
on the database as it is then, whoever has written it. A crash ends a primary at
any of its steps; one whose launch failed or gave up the lock goes on until its
process exits, also while another launch has the lock.

* `Lifetime`: what a launch has had since its recovery.
* `HostInv`: the invariant.
* `one_runner`: a task gets one runner, over all launches.
* `lifetimes_refine`: what each launch has had is a run of its primary from the
  database its recovery left.
* `restart_final`: what a recovery does to the tasks of the launches before it.
-/
namespace CodingAgent.L4.App.Launches
open CodingAgent.L1.Domain CodingAgent.L2.Store

/-! ## The system -/

/-- mirrors crates/coding-agent-app/src/single_instance.rs:47 -/
def maxConcurrentTasks : Nat := 4

/-- mirrors crates/coding-agent-app/src/single_instance.rs:816-820 -/
def restartFailure : TaskFailure :=
  { code := "APP_RESTARTED"
    message := "task was interrupted because the application restarted"
    retryable := true }

/-- A launch since its recovery, which found one database and left another. -/
structure Lifetime where
  found : Db
  recovered : Db
  /-- its components are spawned and its process lives -/
  up : Bool
  /-- no other launch has changed the database since -/
  alone : Bool
  primary : Primary

structure Host where
  instances : SingleInstance.State
  db : Db
  lifetimes : Nat → Option Lifetime
  /-- which launch got which task running, and which spawned its runner -/
  started : List (Nat × TaskId)
  spawned : List (Nat × TaskId)

inductive HostLabel where
  | launch (l : SingleInstance.Label)
  /-- `recover_incomplete` of a start -/
  | recover (p : Nat) (env : Env) (now : UtcTimestamp)
  | primary (p : Nat) (l : Label)

/-- The primary of a launch, with the database as it is. -/
def Lifetime.state (life : Lifetime) (db : Db) : Primary := { life.primary with db }

/-- Another launch has left `after` of `before`. -/
def Lifetime.witness (life : Lifetime) (before after : Db) : Lifetime :=
  { life with alone := life.alone && after = before }

/-- Requests come while the server task runs. -/
def served (launch : SingleInstance.Launch) : Label → Bool
  | .enter _ => launch.keepalive
  | _ => true

namespace Host
variable (h : Host)

/-- The launch `p` has written, and all the others see it. -/
def write (p : Nat) (life : Lifetime) (db : Db) : Host :=
  { h with
    db
    lifetimes := Function.update (fun q => (h.lifetimes q).map (·.witness h.db db)) p (some life) }

/-- mirrors crates/coding-agent-app/src/single_instance.rs:809-822 -/
def recover (p : Nat) (env : Env) (now : UtcTimestamp) : Option Host :=
  match SingleInstance.next h.instances (.done p .recover),
      recoverIncomplete env now restartFailure h.db with
  | some instances, .ok (_, db) =>
    some { h.write p ⟨h.db, db, false, true, .start maxConcurrentTasks db⟩ db with instances }
  | _, _ => none

/-- The writer and the manager are spawned right after the dispatcher.
mirrors crates/coding-agent-app/src/single_instance.rs:866-920 -/
def launch (l : SingleInstance.Label) : Option Host :=
  let goes := fun (p : Nat) (up : Bool) =>
    Function.update h.lifetimes p ((h.lifetimes p).map fun life => { life with up })
  (SingleInstance.next h.instances l).map fun instances =>
    match l with
    | .done p .dispatcher => { h with instances, lifetimes := goes p true }
    | .crash p => { h with instances, lifetimes := goes p false }
    | _ => { h with instances }

def act (p : Nat) (l : Label) : Option Host :=
  match h.lifetimes p with
  | none => none
  | some life =>
    if life.up && served (h.instances.launches p) l then
      (next (life.state h.db) l).map fun s =>
        { h.write p { life with primary := s } s.db with
          started := h.started ++ (startedBy h.db s.db).map (p, ·)
          spawned := h.spawned ++ ((life.state h.db).spawns s).map (p, ·) }
    else none

end Host

def hostNext (h : Host) : HostLabel → Option Host
  | .launch l => if l.completes.any (·.2 = .recover) then none else h.launch l
  | .recover p env now => h.recover p env now
  | .primary p l => h.act p l

/-- Nobody has been launched. -/
structure HostInit (db : Db) (h : Host) : Prop where
  instances : SingleInstance.Initial h.instances
  db : h.db = db
  lifetimes : ∀ p, h.lifetimes p = none
  started : h.started = []
  spawned : h.spawned = []

def host (db : Db) : LTS Host HostLabel := .ofFn (HostInit db) hostNext

/-! ## A start recovers once -/

section
open SingleInstance

/-- The launch has been past the recovery, or has given up. -/
def opened : Pc → Bool
  | .idle | .prepared | .secondary => false
  | .starting step => .recover ∈ step.before
  | _ => true

variable {s s' : State} {p q : Nat}

theorem opened_update {launch : Launch} {lock : Option Nat} {descriptor : Option Descriptor}
    (hp : opened (s.launches p).pc = true → opened launch.pc = true)
    (hq : opened (s.launches q).pc = true) :
    opened ((⟨Function.update s.launches p launch, lock, descriptor⟩ : State).launches q).pc =
      true := by
  show opened (Function.update s.launches p launch q).pc = true
  by_cases h : q = p
  · subst h
    rw [Function.update_self]
    exact hp hq
  · rwa [Function.update_of_ne h]

theorem opened_done {step : StartupStep} (h : opened (.starting step) = true) :
    opened step.nextPc = true := by
  cases step <;> first | rfl | cases h

theorem opened_step {l : SingleInstance.Label} (hs : SingleInstance.next s l = some s')
    (hq : opened (s.launches q).pc = true) : opened (s'.launches q).pc = true := by
  cases l with
  | prepare p =>
    simp only [SingleInstance.next, Option.ite_none_right_eq_some, Option.some.injEq] at hs
    obtain ⟨hpc, rfl⟩ := hs
    exact opened_update (fun ho => by rw [hpc] at ho; cases ho) hq
  | tryAcquire p =>
    simp only [SingleInstance.next, Option.ite_none_right_eq_some, Option.some.injEq] at hs
    obtain ⟨hpc, rfl⟩ := hs
    split
    · exact opened_update (s := { s with lock := some p })
        (fun ho => by change opened (s.launches p).pc = true at ho; rw [hpc] at ho; cases ho) hq
    · exact opened_update (fun ho => by rw [hpc] at ho; cases ho) hq
  | done p step =>
    simp only [SingleInstance.next, Option.ite_none_right_eq_some, Option.some.injEq] at hs
    obtain ⟨⟨hpc, -⟩, rfl⟩ := hs
    exact opened_update (s := { s with descriptor := _ })
      (fun ho => opened_done (by change opened (s.launches p).pc = true at ho; rwa [hpc] at ho)) hq
  | probed p response =>
    simp only [SingleInstance.next, Option.ite_none_right_eq_some, Option.some.injEq] at hs
    obtain ⟨-, rfl⟩ := hs
    split
    · exact opened_update (s := { s with descriptor := _ }) (fun _ => rfl) hq
    · exact opened_update (fun _ => rfl) hq
  | withdraw p | dropLock p | removeDescriptor p | releaseLock p =>
    simp only [SingleInstance.next, Option.ite_none_right_eq_some, Option.some.injEq] at hs
    obtain ⟨-, rfl⟩ := hs
    exact opened_update (fun _ => rfl) hq
  | fail p =>
    simp only [SingleInstance.next] at hs
    split at hs
    · cases hs
      exact opened_update (fun _ => rfl) hq
    · cases hs
      exact opened_update (fun _ => rfl) hq
    · cases hs
      refine opened_update (fun _ => ?_) hq
      show opened (if _ then Pc.withdrawing else Pc.unwinding) = true
      split <;> rfl
    · cases hs
  | abandon p =>
    simp only [SingleInstance.next] at hs
    split at hs
    · cases hs
      exact opened_update (fun _ => rfl) hq
    · cases hs
  | serverEnds p =>
    simp only [SingleInstance.next, Option.ite_none_right_eq_some, Option.some.injEq] at hs
    obtain ⟨-, rfl⟩ := hs
    exact opened_update id hq
  | forceCleanup p =>
    simp only [SingleInstance.next] at hs
    split at hs
    · cases hs
      exact opened_update (fun _ => rfl) hq
    · cases hs
      exact hq
    · cases hs
      exact hq
    · cases hs
  | crash p =>
    simp only [SingleInstance.next, Option.some.injEq] at hs
    subst hs
    exact opened_update (fun _ => rfl) hq

/-- Nobody but the launch that recovers has an open handle of the locked file. -/
theorem recovers_alone (hr : instances.Reachable s)
    (hs : SingleInstance.next s (.done p .recover) = some s') :
    opened (s.launches p).pc = false ∧ opened (s'.launches p).pc = true ∧
      ∀ q, q ≠ p → ¬(s.launches q).Holds := by
  have hinv := inv_inductive.reachable s hr
  simp only [SingleInstance.next, Option.ite_none_right_eq_some, Option.some.injEq] at hs
  obtain ⟨⟨hpc, -⟩, rfl⟩ := hs
  refine ⟨by rw [hpc]; rfl, ?_, fun q hq hh => ?_⟩
  · show opened ((Function.update _ p _ : Nat → Launch) p).pc = true
    rw [Function.update_self]
    rfl
  · have hlock : s.lock = some p := (hinv p).lock_of_owns (by rw [hpc]; rfl)
    have hother : s.lock = some q := (hinv q).holds.1 hh
    rw [hlock] at hother
    exact hq (Option.some.inj hother).symm

end

/-! ## A database that others write to -/

/-- A database and the one a step of some process leaves. -/
def Written (db db' : Db) : Prop := db' = db ∨ ∃ (env : Env) (repositoryId : RepositoryId)
  (fails : Bool) (operation : StoreWriterOperation),
  db' = (operation.execute env repositoryId fails db).2

section
variable {s s' : Primary} {l : Label} {db db' : Db}

theorem step_written (hs : Step s l s') : Written s.db s'.db := by
  cases hs with
  | wroteManager hw hx | wroteCoordinator hw hx | wroteHandler hw hx =>
    exact .inr ⟨_, _, _, _, by rw [hx]⟩
  | _ => exact .inl rfl

theorem recover_written {env : Env} {now : UtcTimestamp} {failure : TaskFailure}
    {out : RecoveryOutcome} (hok : recoverIncomplete env now failure db = .ok (out, db')) :
    Written db db' := by
  refine .inr ⟨env, ⟨0⟩, false, .task (.recoverIncomplete now failure), ?_⟩
  have hop : (Operation.recoverIncomplete now failure).tx env db = .ok (.recovery out, db') :=
    tx_map_ok.2 ⟨out, hok, rfl⟩
  simp [StoreWriterOperation.execute, Call.run, hop]

theorem Written.grows (hw : Written db db') {log : List TaskEvent} (h : Reflects db log) :
    ∃ new, Reflects db' (log ++ new) := by
  rcases hw with rfl | ⟨env, repositoryId, fails, operation, rfl⟩
  · exact ⟨[], by rwa [List.append_nil]⟩
  · exact (execute_grows h (Prod.eta _).symm).1

theorem Written.reflects (hw : Written db db') (h : ∃ log, Reflects db log) :
    ∃ log, Reflects db' log :=
  h.elim fun log hlog => (hw.grows hlog).elim fun new hnew => ⟨log ++ new, hnew⟩

theorem Written.started (hw : Written db db') (h : ∃ log, Reflects db log) {id : TaskId}
    (hs : db.board.Started id) : db'.board.Started id := by
  rcases hw with rfl | ⟨env, repositoryId, fails, operation, rfl⟩
  · exact hs
  · exact (execute_wrote h (Prod.eta _).symm).2.started hs

/-- A settled task keeps its verdict and its panel. -/
theorem Written.settled (hw : Written db db') (h : ∃ log, Reflects db log) {id : TaskId}
    (hs : db.board.Settled id) : db'.board.verdict id = db.board.verdict id ∧
      db'.board.panel id = db.board.panel id := by
  rcases hw with rfl | ⟨env, repositoryId, fails, operation, rfl⟩
  · exact ⟨rfl, rfl⟩
  · exact (execute_wrote h (Prod.eta _).symm).2.settled hs

theorem Written.keepsSettled (hw : Written db db') (h : ∃ log, Reflects db log) {id : TaskId}
    (hs : db.board.Settled id) : db'.board.Settled id := by
  obtain ⟨status, hst, hterm⟩ := hs
  refine ⟨status, ?_, hterm⟩
  rw [Board.status, (hw.settled h ⟨status, hst, hterm⟩).1]
  exact hst

theorem startedBy_queued {id : TaskId} (h : ∃ log, Reflects db log) (hid : id ∈ startedBy db db') :
    db.board.status id = some .queued := by
  obtain ⟨⟨row, hrow, rfl, hq⟩, -⟩ := mem_startedBy.1 hid
  obtain ⟨log, hlog⟩ := h
  rw [board_row hlog hrow, hq]

theorem startedBy_started {id : TaskId} (h : ∃ log, Reflects db' log)
    (hid : id ∈ startedBy db db') : db'.board.Started id := by
  obtain ⟨-, row, hrow, rfl, hrun⟩ := mem_startedBy.1 hid
  obtain ⟨log, hlog⟩ := h
  exact ⟨.running, by rw [board_row hlog hrow, hrun], nofun⟩

theorem startedBy_nodup (h : ∃ log, Reflects db' log) : (startedBy db db').Nodup := by
  obtain ⟨log, hlog⟩ := h
  exact hlog.nodup.sublist (List.filter_sublist.map _)

/-- What a recovery leaves is a database a primary may start from. -/
theorem recovered_final {env : Env} {now : UtcTimestamp} {failure : TaskFailure}
    {out : RecoveryOutcome} (h : ∃ log, Reflects db log)
    (hok : recoverIncomplete env now failure db = .ok (out, db')) :
    Recovered db' ∧ ∀ row ∈ db.tasks, db'.board.Settled row.id := by
  obtain ⟨log, hlog⟩ := h
  have hstatus : ∀ id, db'.board.status id =
      (db.board.status id).map fun s => if isIncomplete s then .interrupted else s := fun id => by
    rw [board_recovered hlog hok, Board.recover_status]
  refine ⟨⟨(recover_written hok).reflects ⟨log, hlog⟩, fun id hrun => ?_⟩, fun row hrow => ?_⟩
  · rw [hstatus, Option.map_eq_some_iff] at hrun
    obtain ⟨status, -, hst⟩ := hrun
    cases status <;> cases hst
  · rw [Board.Settled, hstatus, board_row hlog hrow]
    refine ⟨_, rfl, ?_⟩
    cases row.status <;> rfl

end

/-! ## What a launch has had -/

/-- The tasks of one launch. -/
def ofLaunch (p : Nat) (pairs : List (Nat × TaskId)) : List TaskId :=
  (pairs.filter (·.1 = p)).map (·.2)

theorem mem_ofLaunch {p : Nat} {pairs : List (Nat × TaskId)} {id : TaskId} :
    id ∈ ofLaunch p pairs ↔ (p, id) ∈ pairs := by
  simp [ofLaunch]

theorem ofLaunch_own (p : Nat) (pairs : List (Nat × TaskId)) (ids : List TaskId) :
    ofLaunch p (pairs ++ ids.map (p, ·)) = ofLaunch p pairs ++ ids := by
  simp [ofLaunch, List.filter_map, Function.comp_def]

theorem ofLaunch_other {p q : Nat} (h : q ≠ p) (pairs : List (Nat × TaskId)) (ids : List TaskId) :
    ofLaunch q (pairs ++ ids.map (p, ·)) = ofLaunch q pairs := by
  simp [ofLaunch, List.filter_map, Function.comp_def, h.symm]

structure LifetimeOk (db : Db) (started spawned : List (Nat × TaskId)) (p : Nat) (life : Lifetime) :
    Prop where
  finalized : Finalized life.found life.recovered
  recovered : Recovered life.recovered
  settled : ∀ row ∈ life.found.tasks, db.board.Settled row.id
  watched : ∃ w, (watched maxConcurrentTasks life.recovered).Reachable w ∧
    w.primary = life.state db ∧ w.spawned = ofLaunch p spawned
  claim : ∀ task current, life.primary.manager.pc.claimReply = some (task, current) →
    (p, task.id) ∈ started
  fresh : ∀ id, (p, id) ∈ started → ∀ row ∈ life.found.tasks, row.id ≠ id
  alone : life.alone = true → (primary maxConcurrentTasks life.recovered).Reachable (life.state db)

section
variable {db db' : Db} {started started' spawned spawned' : List (Nat × TaskId)} {p : Nat}
  {life : Lifetime}

/-- Another launch writes. -/
theorem LifetimeOk.witness (h : LifetimeOk db started spawned p life) (hw : Written db db')
    (hdb : ∃ log, Reflects db log) (hstarted : ∀ id, (p, id) ∈ started' ↔ (p, id) ∈ started)
    (hspawned : ofLaunch p spawned' = ofLaunch p spawned) :
    LifetimeOk db' started' spawned' p (life.witness db db') where
  finalized := h.finalized
  recovered := h.recovered
  settled row hrow := hw.keepsSettled hdb (h.settled row hrow)
  watched := by
    obtain ⟨w, hr, hprimary, hsame⟩ := h.watched
    rw [hspawned]
    rcases hw with rfl | ⟨env, repositoryId, fails, operation, rfl⟩
    · exact ⟨w, hr, hprimary, hsame⟩
    · let outside : Outside := .execute env repositoryId fails operation
      have hstep : watchedNext w (.inr outside) = some ⟨outside.apply w.primary,
          w.primary.scans w.scan, w.started ++ startedBy w.primary.db (outside.apply w.primary).db,
          w.spawned ++ w.primary.spawns (outside.apply w.primary)⟩ := rfl
      refine ⟨_, hr.step hstep, ?_, ?_⟩
      · show outside.apply w.primary = _
        rw [hprimary]
        rfl
      · have hnone : w.primary.spawns (outside.apply w.primary) = [] := spawns_same rfl
        show w.spawned ++ w.primary.spawns (outside.apply w.primary) = _
        rw [hnone, List.append_nil, hsame]
  claim task current hc := (hstarted _).2 (h.claim task current hc)
  fresh id hid := h.fresh id ((hstarted id).1 hid)
  alone halone := by
    simp only [Lifetime.witness, Bool.and_eq_true, decide_eq_true_eq] at halone
    obtain ⟨halone, rfl⟩ := halone
    exact h.alone halone

/-- A launch begins its lifetime with the recovery. -/
theorem LifetimeOk.begins {env : Env} {now : UtcTimestamp} {out : RecoveryOutcome} {up : Bool}
    (hdb : ∃ log, Reflects db log)
    (hok : recoverIncomplete env now restartFailure db = .ok (out, db'))
    (hstarted : ∀ id, (p, id) ∉ started) (hspawned : ∀ id, (p, id) ∉ spawned) :
    LifetimeOk db' started spawned p ⟨db, db', up, true, .start maxConcurrentTasks db'⟩ where
  finalized := hdb.elim fun _ hlog => recoverIncomplete_finalized hlog hok
  recovered := (recovered_final hdb hok).1
  settled := (recovered_final hdb hok).2
  watched := by
    refine ⟨_, LTS.reachable_init rfl, rfl, ?_⟩
    exact (List.eq_nil_iff_forall_not_mem.2 fun id hid => hspawned id (mem_ofLaunch.1 hid)).symm
  claim _ _ hc := by cases hc
  fresh id hid := absurd hid (hstarted id)
  alone _ := LTS.reachable_init rfl

/-- What is known of the primary of a launch, over the database as it is. -/
theorem LifetimeOk.scheduled (h : LifetimeOk db started spawned p life) :
    ∃ w, Scheduled maxConcurrentTasks w ∧ w.primary = life.state db ∧
      w.spawned = ofLaunch p spawned := by
  obtain ⟨w, hr, hprimary, hspawned⟩ := h.watched
  exact ⟨w, (inductive_scheduled h.recovered.reflects).reachable w hr, hprimary, hspawned⟩

/-- The runner it spawns is for the task it has got running. -/
theorem LifetimeOk.spawns (h : LifetimeOk db started spawned p life) {s : Primary} {id : TaskId}
    (hid : id ∈ (life.state db).spawns s) : (p, id) ∈ started := by
  obtain ⟨w, hscheduled, hprimary, -⟩ := h.scheduled
  unfold Primary.spawns at hid
  split at hid
  · unfold ManagerPc.spawning at hid
    split at hid
    · rename_i task repository rest repositories current hpc
      obtain rfl := List.mem_singleton.1 hid
      obtain ⟨hsame, -⟩ := hscheduled.scans.claim task current (by rw [hprimary, hpc]; rfl)
      rw [hsame]
      exact h.claim task current (by rw [show life.primary.manager.pc = _ from hpc]; rfl)
    · cases hid
  · cases hid

/-- Its primary takes a step. -/
theorem LifetimeOk.act (h : LifetimeOk db started spawned p life) (hdb : ∃ log, Reflects db log)
    {l : Label} {s : Primary} (hs : next (life.state db) l = some s) :
    LifetimeOk s.db (started ++ (startedBy db s.db).map (p, ·))
      (spawned ++ ((life.state db).spawns s).map (p, ·)) p { life with primary := s } := by
  have hstep := step_of_next hs
  have hw : Written db s.db := step_written hstep
  obtain ⟨w, hscheduled, hprimary, -⟩ := h.scheduled
  refine ⟨h.finalized, h.recovered, fun row hrow => hw.keepsSettled hdb (h.settled row hrow), ?_, ?_,
    ?_, fun halone => (h.alone halone).step hs⟩
  · obtain ⟨w, hr, hprimary, hspawned⟩ := h.watched
    have hwatched : watchedNext w (.inl l) = some ⟨s, w.primary.scans w.scan,
        w.started ++ startedBy w.primary.db s.db, w.spawned ++ w.primary.spawns s⟩ := by
      simp only [watchedNext, contendedNext, hprimary, hs, Option.map_some]
    refine ⟨_, hr.step hwatched, rfl, ?_⟩
    rw [ofLaunch_own, hprimary, hspawned]
  · intro task current hc
    have hlinked := hscheduled.linked
    rw [hprimary] at hlinked
    rcases claimReply_step hstep hdb hlinked hc with hold | hnew
    · exact List.mem_append_left _ (h.claim task current hold)
    · exact List.mem_append_right _ (List.mem_map_of_mem hnew)
  · intro id hid row hrow heq
    rcases List.mem_append.1 hid with hid | hid
    · exact h.fresh id hid row hrow heq
    · obtain ⟨_, hmem, hpair⟩ := List.mem_map.1 hid
      cases hpair
      -- a task it found is settled, so it cannot have been queued
      obtain ⟨status, hst, hterm⟩ := h.settled row hrow
      rw [heq, startedBy_queued hdb hmem] at hst
      cases hst
      cases hterm

end

/-! ## The invariant -/

structure HostInv (h : Host) : Prop where
  instances : SingleInstance.instances.Reachable h.instances
  store : ∃ log, Reflects h.db log
  opened : ∀ p, (h.lifetimes p).isSome → opened (h.instances.launches p).pc = true
  life : ∀ p life, h.lifetimes p = some life → LifetimeOk h.db h.started h.spawned p life
  owner : ∀ x ∈ h.started, (h.lifetimes x.1).isSome
  started : ∀ x ∈ h.started, h.db.board.Started x.2
  startedOnce : (h.started.map Prod.snd).Nodup
  committed : ∀ x ∈ h.spawned, x ∈ h.started
  spawnedOnce : (h.spawned.map Prod.snd).Nodup

section
variable {h h' : Host} {p : Nat} {life : Lifetime} {db : Db}

theorem write_self : (h.write p life db).lifetimes p = some life := by
  simp [Host.write]

theorem write_other {q : Nat} (hq : q ≠ p) : (h.write p life db).lifetimes q =
    (h.lifetimes q).map (·.witness h.db db) := by
  simp [Host.write, hq]

theorem write_isSome {q : Nat} (hq : (h.lifetimes q).isSome) :
    ((h.write p life db).lifetimes q).isSome := by
  by_cases heq : q = p
  · rw [heq, write_self]
    rfl
  · rw [write_other heq, Option.isSome_map]
    exact hq

/-- What all the launches have had, when one has written. -/
theorem HostInv.write (hi : HostInv h) (hw : Written h.db db) {starts spawns : List TaskId}
    (hlife : LifetimeOk db (h.started ++ starts.map (p, ·)) (h.spawned ++ spawns.map (p, ·)) p life) :
    ∀ q life', (h.write p life db).lifetimes q = some life' →
      LifetimeOk db (h.started ++ starts.map (p, ·)) (h.spawned ++ spawns.map (p, ·)) q life' := by
  intro q life' hq
  by_cases heq : q = p
  · subst heq
    rw [write_self] at hq
    cases hq
    exact hlife
  · rw [write_other heq] at hq
    obtain ⟨old, hold, rfl⟩ := Option.map_eq_some_iff.1 hq
    refine (hi.life q old hold).witness hw hi.store (fun id => ?_) (ofLaunch_other heq _ _)
    simp [Ne.symm heq]

theorem hostInv_init {db : Db} (hdb : ∃ log, Reflects db log) (hi : HostInit db h) : HostInv h where
  instances := LTS.reachable_init hi.instances
  store := hi.db ▸ hdb
  opened p hp := by
    rw [hi.lifetimes p] at hp
    cases hp
  life p life hp := by
    rw [hi.lifetimes p] at hp
    cases hp
  owner x hx := by
    rw [hi.started] at hx
    cases hx
  started x hx := by
    rw [hi.started] at hx
    cases hx
  startedOnce := by
    rw [hi.started]
    exact List.nodup_nil
  committed x hx := by
    rw [hi.spawned] at hx
    cases hx
  spawnedOnce := by
    rw [hi.spawned]
    exact List.nodup_nil

/-- A step of the protocol leaves a lifetime as it is, but for `up`. -/
theorem launch_spec {l : SingleInstance.Label} (hs : h.launch l = some h') :
    ∃ instances, SingleInstance.next h.instances l = some instances ∧
      h'.instances = instances ∧ h'.db = h.db ∧ h'.started = h.started ∧ h'.spawned = h.spawned ∧
      ∀ q, h'.lifetimes q = h.lifetimes q ∨
        ∃ life up, h.lifetimes q = some life ∧ h'.lifetimes q = some { life with up } := by
  obtain ⟨instances, hnext, hh⟩ := Option.map_eq_some_iff.1 hs
  refine ⟨instances, hnext, ?_⟩
  have goes : ∀ (p : Nat) (up : Bool) (q : Nat),
      Function.update h.lifetimes p ((h.lifetimes p).map fun life => { life with up }) q =
          h.lifetimes q ∨
        ∃ life up', h.lifetimes q = some life ∧
          Function.update h.lifetimes p ((h.lifetimes p).map fun life => { life with up }) q =
            some { life with up := up' } := by
    intro p up q
    by_cases hq : q = p
    · subst hq
      rw [Function.update_self]
      cases h.lifetimes q with
      | none => exact .inl rfl
      | some life => exact .inr ⟨life, up, rfl, rfl⟩
    · exact .inl (Function.update_of_ne hq ..)
  split at hh
  · cases hh
    exact ⟨rfl, rfl, rfl, rfl, goes _ true⟩
  · cases hh
    exact ⟨rfl, rfl, rfl, rfl, goes _ false⟩
  · cases hh
    exact ⟨rfl, rfl, rfl, rfl, fun _ => .inl rfl⟩

theorem HostInv.launch (hi : HostInv h) {l : SingleInstance.Label} (hs : h.launch l = some h') :
    HostInv h' := by
  obtain ⟨instances, hnext, rfl, hdb, hstarted, hspawned, hlives⟩ := launch_spec hs
  have hsome : ∀ q, (h'.lifetimes q).isSome = (h.lifetimes q).isSome := by
    intro q
    rcases hlives q with hsame | ⟨life, up, hold, hnew⟩
    · rw [hsame]
    · rw [hold, hnew]
      rfl
  refine ⟨hi.instances.step hnext, by rw [hdb]; exact hi.store, fun q hq => ?_, fun q life hq => ?_,
    fun x hx => ?_, by rw [hstarted, hdb]; exact hi.started, by rw [hstarted]; exact hi.startedOnce,
    by rw [hstarted, hspawned]; exact hi.committed, by rw [hspawned]; exact hi.spawnedOnce⟩
  · exact opened_step hnext (hi.opened q ((hsome q).symm.trans hq))
  · rw [hdb, hstarted, hspawned]
    rcases hlives q with hsame | ⟨old, up, hold, hnew⟩
    · exact hi.life q life (hsame.symm.trans hq)
    · rw [hnew] at hq
      cases hq
      have hok := hi.life q old hold
      exact ⟨hok.finalized, hok.recovered, hok.settled, hok.watched, hok.claim, hok.fresh, hok.alone⟩
  · rw [hsome]
    exact hi.owner x (hstarted ▸ hx)

/-- What a recovery is. -/
theorem recover_spec {env : Env} {now : UtcTimestamp} (hs : h.recover p env now = some h') :
    ∃ instances out db, SingleInstance.next h.instances (.done p .recover) = some instances ∧
      recoverIncomplete env now restartFailure h.db = .ok (out, db) ∧
      h' = { h.write p ⟨h.db, db, false, true, .start maxConcurrentTasks db⟩ db with instances } := by
  unfold Host.recover at hs
  split at hs
  · rename_i instances out db hnext hok
    cases hs
    exact ⟨instances, out, db, hnext, hok, rfl⟩
  · cases hs

theorem HostInv.recover (hi : HostInv h) {env : Env} {now : UtcTimestamp}
    (hs : h.recover p env now = some h') : HostInv h' := by
  obtain ⟨instances, out, db, hnext, hok, rfl⟩ := recover_spec hs
  obtain ⟨hclosed, hopened, -⟩ := recovers_alone hi.instances hnext
  have hw : Written h.db db := recover_written hok
  have hnone : ∀ id, (p, id) ∉ h.started := by
    intro id hid
    have := hi.opened p (hi.owner _ hid)
    rw [hclosed] at this
    cases this
  have hlife : LifetimeOk db (h.started ++ ([] : List TaskId).map (p, ·))
      (h.spawned ++ ([] : List TaskId).map (p, ·)) p
      ⟨h.db, db, false, true, .start maxConcurrentTasks db⟩ := by
    simp only [List.map_nil, List.append_nil]
    exact .begins hi.store hok hnone fun id hid => hnone id (hi.committed _ hid)
  have hlives := hi.write hw hlife
  simp only [List.map_nil, List.append_nil] at hlives
  refine ⟨hi.instances.step hnext, hw.reflects hi.store, fun q hq => ?_, hlives,
    fun x hx => write_isSome (hi.owner x hx), fun x hx => hw.started hi.store (hi.started x hx),
    hi.startedOnce, hi.committed, hi.spawnedOnce⟩
  by_cases heq : q = p
  · rw [heq]
    exact hopened
  · refine opened_step hnext (hi.opened q ?_)
    change ((h.write p _ db).lifetimes q).isSome = true at hq
    rwa [write_other heq, Option.isSome_map] at hq

/-- What a step of a primary is. -/
theorem act_spec {l : Label} (hs : h.act p l = some h') :
    ∃ life s, h.lifetimes p = some life ∧ life.up = true ∧ next (life.state h.db) l = some s ∧
      h' = { h.write p { life with primary := s } s.db with
        started := h.started ++ (startedBy h.db s.db).map (p, ·)
        spawned := h.spawned ++ ((life.state h.db).spawns s).map (p, ·) } := by
  unfold Host.act at hs
  split at hs
  · cases hs
  · rename_i life hlife
    split at hs
    · rename_i hup
      obtain ⟨s, hnext, rfl⟩ := Option.map_eq_some_iff.1 hs
      rw [Bool.and_eq_true] at hup
      exact ⟨life, s, hlife, hup.1, hnext, rfl⟩
    · cases hs

theorem map_snd_pairs (p : Nat) (ids : List TaskId) : (ids.map (p, ·)).map Prod.snd = ids := by
  simp [Function.comp_def]

theorem HostInv.act (hi : HostInv h) {l : Label} (hs : h.act p l = some h') : HostInv h' := by
  obtain ⟨life, s, hlife, -, hnext, rfl⟩ := act_spec hs
  have hok := hi.life p life hlife
  have hw : Written h.db s.db := step_written (s := life.state h.db) (step_of_next hnext)
  have hacted := hok.act hi.store hnext
  obtain ⟨w, hscheduled, hprimary, hspawned⟩ := hok.scheduled
  obtain ⟨hnodup, hspawns⟩ := hscheduled.spawns s
  rw [hprimary] at hnodup hspawns
  have hcommitted : ∀ id ∈ (life.state h.db).spawns s, (p, id) ∈ h.started := fun _ => hok.spawns
  refine ⟨hi.instances, hw.reflects hi.store, fun q hq => ?_, hi.write hw hacted, fun x hx => ?_,
    fun x hx => ?_, ?_, fun x hx => ?_, ?_⟩
  · by_cases heq : q = p
    · rw [heq]
      exact hi.opened p (by rw [hlife]; rfl)
    · change ((h.write p _ s.db).lifetimes q).isSome = true at hq
      rw [write_other heq, Option.isSome_map] at hq
      exact hi.opened q hq
  · rcases List.mem_append.1 hx with hx | hx
    · exact write_isSome (hi.owner x hx)
    · obtain ⟨id, -, rfl⟩ := List.mem_map.1 hx
      exact write_isSome (by rw [hlife]; rfl)
  · rcases List.mem_append.1 hx with hx | hx
    · exact hw.started hi.store (hi.started x hx)
    · obtain ⟨id, hid, rfl⟩ := List.mem_map.1 hx
      exact startedBy_started (hw.reflects hi.store) hid
  · rw [List.map_append, map_snd_pairs]
    refine List.nodup_append.2 ⟨hi.startedOnce, startedBy_nodup (hw.reflects hi.store), ?_⟩
    rintro id hold id' hnew rfl
    -- a task that was started is not queued anymore
    obtain ⟨x, hx, rfl⟩ := List.mem_map.1 hold
    obtain ⟨status, hst, hq⟩ := hi.started x hx
    rw [startedBy_queued hi.store hnew] at hst
    exact hq (Option.some.inj hst).symm
  · rcases List.mem_append.1 hx with hx | hx
    · exact List.mem_append_left _ (hi.committed x hx)
    · obtain ⟨id, hid, rfl⟩ := List.mem_map.1 hx
      exact List.mem_append_left _ (hcommitted id hid)
  · rw [List.map_append, map_snd_pairs]
    refine List.nodup_append.2 ⟨hi.spawnedOnce, hnodup, ?_⟩
    rintro id hold id' hnew rfl
    obtain ⟨⟨q, id⟩, hx, rfl⟩ := List.mem_map.1 hold
    -- one launch has started the task, so both runners are its own
    have hpair : (q, id) = (p, id) :=
      List.inj_on_of_nodup_map hi.startedOnce (hi.committed _ hx) (hcommitted id hnew) rfl
    cases hpair
    exact (hspawns id hnew).1 (by rw [hspawned]; exact mem_ofLaunch.2 hx)

theorem hostInv_inductive {db : Db} (hdb : ∃ log, Reflects db log) : (host db).Inductive HostInv where
  init _ hi := hostInv_init hdb hi
  step h l h' hi hs := by
    change hostNext h l = some h' at hs
    cases l with
    | launch l =>
      simp only [hostNext] at hs
      split at hs
      · cases hs
      · exact hi.launch hs
    | recover p env now => exact hi.recover hs
    | primary p l => exact hi.act hs

end

/-! ## The results -/

section
variable {db : Db} {h h' : Host}

/-- What a step of the host does to the database. -/
theorem host_written {l : HostLabel} (hs : hostNext h l = some h') :
    Written h.db h'.db ∧ ∀ x ∈ h'.started, x ∈ h.started ∨ x.2 ∈ startedBy h.db h'.db := by
  cases l with
  | launch l =>
    simp only [hostNext] at hs
    split at hs
    · cases hs
    · obtain ⟨-, -, -, hdb, hstarted, -⟩ := launch_spec hs
      rw [hdb, hstarted]
      exact ⟨.inl rfl, fun _ hx => .inl hx⟩
  | recover p env now =>
    obtain ⟨instances, out, db, -, hok, rfl⟩ := recover_spec hs
    exact ⟨recover_written hok, fun _ hx => .inl hx⟩
  | primary p l =>
    obtain ⟨life, s, hlife, -, hnext, rfl⟩ := act_spec hs
    refine ⟨step_written (s := life.state h.db) (step_of_next hnext), fun x hx => ?_⟩
    refine (List.mem_append.1 hx).imp_right fun hx => ?_
    obtain ⟨id, hid, rfl⟩ := List.mem_map.1 hx
    exact hid

structure OneRunner (h : Host) : Prop where
  started : (h.started.map Prod.snd).Nodup
  spawned : (h.spawned.map Prod.snd).Nodup
  /-- the launch that spawns the runner is the one that got the task running -/
  committed : ∀ x ∈ h.spawned, x ∈ h.started
  runners : ∀ p life, h.lifetimes p = some life →
    ∀ id, (life.primary.runners id).isSome ↔ (p, id) ∈ h.spawned
  exclusive : ∀ p q life life', h.lifetimes p = some life → h.lifetimes q = some life' →
    ∀ id, (life.primary.runners id).isSome → (life'.primary.runners id).isSome → p = q
  /-- no runner for a task that was there when its launch started -/
  fresh : ∀ p life, h.lifetimes p = some life → ∀ row ∈ life.found.tasks,
    life.primary.runners row.id = none

/-- **One runner over all launches.** Whichever launches start, fail, shut down
or crash, at whichever step and with whichever overlap: a task gets running at
most once, its one runner is spawned by the launch that got it running, and no
launch runs a task that it found in the store. -/
theorem one_runner (hdb : ∃ log, Reflects db log) (hr : (host db).Reachable h) : OneRunner h := by
  have hi := (hostInv_inductive hdb).reachable h hr
  have runners : ∀ p life, h.lifetimes p = some life →
      ∀ id, (life.primary.runners id).isSome ↔ (p, id) ∈ h.spawned := by
    intro p life hlife id
    obtain ⟨w, hscheduled, hprimary, hspawned⟩ := (hi.life p life hlife).scheduled
    have := hscheduled.runners id
    rw [hspawned, mem_ofLaunch, hprimary] at this
    exact this.symm
  refine ⟨hi.startedOnce, hi.spawnedOnce, hi.committed, runners, ?_, fun p life hlife row hrow => ?_⟩
  · intro p q life life' hp hq id hid hid'
    rw [runners p life hp] at hid
    rw [runners q life' hq] at hid'
    have hpair : (p, id) = (q, id) := List.inj_on_of_nodup_map hi.spawnedOnce hid hid' rfl
    exact congrArg Prod.fst hpair
  · cases hrunner : life.primary.runners row.id with
    | none => rfl
    | some r =>
      have hmem := hi.committed _ ((runners p life hlife row.id).1 (by rw [hrunner]; rfl))
      exact absurd rfl ((hi.life p life hlife).fresh row.id hmem row hrow)

/-- **Every lifetime is a run of its primary.** The recovery of a launch leaves a
database a primary may start from; the primary has since run on it in an
environment that writes too, and as long as no other launch has written, on its
own. -/
theorem lifetimes_refine (hdb : ∃ log, Reflects db log) (hr : (host db).Reachable h) {p : Nat}
    {life : Lifetime} (hlife : h.lifetimes p = some life) :
    Recovered life.recovered ∧ Finalized life.found life.recovered ∧
    (∃ w, (watched maxConcurrentTasks life.recovered).Reachable w ∧
      w.primary = life.state h.db ∧ w.spawned = ofLaunch p h.spawned) ∧
    (life.alone = true →
      (primary maxConcurrentTasks life.recovered).Reachable (life.state h.db)) := by
  have hok := ((hostInv_inductive hdb).reachable h hr).life p life hlife
  exact ⟨hok.recovered, hok.finalized, hok.watched, hok.alone⟩

/-- A launch that shut down cleanly, no other launch having written since its own
recovery, leaves nothing to recover. -/
theorem clean_left {p : Nat} {life : Lifetime} (hok : LifetimeOk h.db h.started h.spawned p life)
    (halone : life.alone = true) (hclean : life.primary.shutdown = .done .clean) :
    ∀ row ∈ h.db.tasks, isIncomplete row.status = false := by
  have hshut := (inductive_shut hok.recovered).reachable _ (hok.alone halone)
  have hsome := hshut.closed.clean (by
    show life.primary.shutdown.isClean = true
    rw [hclean]
    rfl)
  obtain ⟨⟨before, after⟩, hb⟩ := Option.isSome_iff_exists.1 hsome
  obtain ⟨hsame, hfinal⟩ := hshut.closed.final before after hb
  have hdb : h.db = after := hsame
  rw [hdb]
  exact hfinal.done

/-- What a settled task keeps in every later run. -/
theorem run_settled {ls : List HostLabel} (hi : HostInv h) (hrun : (host db).Run h ls h')
    (hstep : ∀ s l s', HostInv s → (host db).step s l s' → HostInv s') {id : TaskId}
    (hid : h.db.board.Settled id) : h'.db.board.verdict id = h.db.board.verdict id ∧
      h'.db.board.panel id = h.db.board.panel id ∧
      ∀ p, (p, id) ∈ h'.started → (p, id) ∈ h.started := by
  refine (hrun.preserves (P := fun s => HostInv s ∧ s.db.board.Settled id ∧
    s.db.board.verdict id = h.db.board.verdict id ∧ s.db.board.panel id = h.db.board.panel id ∧
    ∀ p, (p, id) ∈ s.started → (p, id) ∈ h.started) ?_ ⟨hi, hid, rfl, rfl, fun _ hp => hp⟩).2.2
  rintro s l s' ⟨hs, hsettled, hverdict, hpanel, hstarted⟩ hl
  obtain ⟨hw, hnew⟩ := host_written hl
  obtain ⟨hv, hp⟩ := hw.settled hs.store hsettled
  refine ⟨hstep s l s' hs hl, hw.keepsSettled hs.store hsettled, hv.trans hverdict, hp.trans hpanel,
    fun p hmem => ?_⟩
  rcases hnew _ hmem with hold | hnow
  · exact hstarted p hold
  · obtain ⟨status, hst, hterm⟩ := hsettled
    rw [startedBy_queued hs.store hnow] at hst
    cases hst
    cases hterm

/-- **A restart is final.** When a launch recovers the store, no other has an open
handle of the locked file. It interrupts the tasks that were queued or running,
each with one event, and nothing else; none at all after a clean shutdown. In
whatever follows these tasks stay as they are, and nobody starts them. -/
theorem restart_final (hdb : ∃ log, Reflects db log) (hr : (host db).Reachable h) {p : Nat} {env : Env}
    {now : UtcTimestamp} (hs : (host db).step h (.recover p env now) h') :
    (∀ q, q ≠ p → ¬(h.instances.launches q).Holds) ∧ Finalized h.db h'.db ∧
    (∃ log new, Reflects h.db log ∧ Reflects h'.db (log ++ new) ∧
      incompleteTaskIds h.db = .ok (new.map (·.taskId), h.db) ∧
      ∀ e ∈ new, ∃ t, Interrupts log now restartFailure e t) ∧
    (∀ q life, h.lifetimes q = some life → life.alone = true →
      life.primary.shutdown = .done .clean → h'.db = h.db) ∧
    ∀ ls h'', (host db).Run h' ls h'' → ∀ row ∈ h.db.tasks, isIncomplete row.status = true →
      h''.db.board.verdict row.id = some ⟨.interrupted, some restartFailure⟩ ∧
      h''.db.board.panel row.id = h.db.board.panel row.id ∧
      ∀ q, (q, row.id) ∈ h''.started → (q, row.id) ∈ h.started := by
  have hind := hostInv_inductive hdb
  have hi := hind.reachable h hr
  have hi' := hind.step h _ h' hi hs
  obtain ⟨instances, out, after, hnext, hok, rfl⟩ := recover_spec hs
  obtain ⟨log, hlog⟩ := hi.store
  obtain ⟨new, hnew, -, hinterrupts, -, hids, -⟩ := recoverIncomplete_reflects hlog hok
  refine ⟨(recovers_alone hi.instances hnext).2.2, recoverIncomplete_finalized hlog hok,
    ⟨log, new, hlog, hnew, hids, hinterrupts⟩, fun q life hlife halone hclean => ?_,
    fun ls h'' hrun row hrow hinc => ?_⟩
  · exact recoverIncomplete_idle (clean_left (hi.life q life hlife) halone hclean) hok
  · have hsettled := (recovered_final hi.store hok).2 row hrow
    obtain ⟨hverdict, hpanel, hstarted⟩ := run_settled hi' hrun hind.step hsettled
    have hboard : after.board = h.db.board.recover restartFailure := board_recovered hlog hok
    refine ⟨hverdict.trans ?_, hpanel.trans ?_, hstarted⟩
    · show after.board.verdict row.id = _
      have hst := board_row hlog hrow
      obtain ⟨v, hv, hstatus⟩ := Option.map_eq_some_iff.1 hst
      rw [hboard]
      show (h.db.board.verdict row.id).map (Board.recoverVerdict restartFailure) = _
      rw [hv, Option.map_some, Board.recoverVerdict, hstatus, if_pos hinc]
    · show after.board.panel row.id = _
      rw [hboard]
      rfl

end

/-! ## A crash and a restart -/

def sampleHost : Host where
  instances := ⟨fun _ => .new, none, some .leftover⟩
  db := sampleDb
  lifetimes _ := none
  started := []
  spawned := []

theorem hostInit_sample : HostInit sampleDb sampleHost :=
  ⟨⟨fun _ => rfl, rfl, nofun⟩, rfl, fun _ => rfl, rfl, rfl⟩

def sampleRecover (p : Nat) : HostLabel := .recover p ⟨0, ⟨0⟩, ⟨0⟩, fun _ => 0⟩ .epoch

/-- A start, in its steps before the recovery and after it. -/
def startsBefore (p : Nat) : List HostLabel :=
  ((SingleInstance.started p).takeWhile (· ≠ .done p .recover)).map .launch

def startsAfter (p : Nat) : List HostLabel :=
  ((SingleInstance.started p).dropWhile (· ≠ .done p .recover)).tail.map .launch

/-- A launch crashes while its task runs, and the next one is about to recover. -/
def sampleCrash : List HostLabel :=
  startsBefore 0 ++ [sampleRecover 0] ++ startsAfter 0 ++ sampleClaim.map (.primary 0) ++
    [.launch (.crash 0)] ++ startsBefore 1

def sampleNewTask : TaskId := ⟨9⟩

def sampleRetryWrite : Label := .write ⟨0, sampleNewTask, ⟨10⟩, fun _ => 0⟩ ⟨1⟩ false

/-- It recovers, and the task is retried. -/
def sampleRestart : List HostLabel :=
  [sampleRecover 1] ++ startsAfter 1 ++
    ([.enter (.retryTask sampleTask), .handler 0, sampleRetryWrite, .handler 0, .receive (.ok .epoch),
      .endTurn, .read true, .claim true, .claim true, .claim true, .send, sampleRetryWrite, .resume,
      .resume] : List Label).map (.primary 1)

theorem one_runner_sample : ∃ h, (host sampleDb).Reachable h ∧
    h.spawned = [(0, sampleTask), (1, sampleNewTask)] ∧ OneRunner h := by
  have hrun : (LTS.exec hostNext sampleHost (sampleCrash ++ sampleRestart)).map (·.spawned) =
      some [(0, sampleTask), (1, sampleNewTask)] := by decide +kernel
  obtain ⟨h, hh, hspawned⟩ := Option.map_eq_some_iff.1 hrun
  have hr : (host sampleDb).Reachable h := LTS.reachable_of_exec hostInit_sample hh
  exact ⟨h, hr, hspawned, one_runner ⟨[], reflects_migrated _⟩ hr⟩

/-- The second launch, which nobody has disturbed. -/
theorem lifetimes_refine_sample : ∃ h life, (host sampleDb).Reachable h ∧
    h.lifetimes 1 = some life ∧ statuses life.found = [.running] ∧
    statuses life.recovered = [.interrupted] ∧
    (primary maxConcurrentTasks life.recovered).Reachable (life.state h.db) := by
  have hrun : ((LTS.exec hostNext sampleHost (sampleCrash ++ sampleRestart)).bind
      (·.lifetimes 1)).map (fun life => (life.alone, statuses life.found, statuses life.recovered)) =
      some (true, [.running], [.interrupted]) := by decide +kernel
  obtain ⟨life, hlife, heq⟩ := Option.map_eq_some_iff.1 hrun
  obtain ⟨h, hh, hlife⟩ := Option.bind_eq_some_iff.1 hlife
  simp only [Prod.mk.injEq] at heq
  have hr : (host sampleDb).Reachable h := LTS.reachable_of_exec hostInit_sample hh
  obtain ⟨-, -, -, halone⟩ := lifetimes_refine ⟨[], reflects_migrated _⟩ hr hlife
  exact ⟨h, life, hr, hlife, heq.2.1, heq.2.2, halone heq.1⟩

/-- The task of the crashed launch is interrupted, and not run again. -/
theorem restart_final_sample : ∃ h h', (host sampleDb).Reachable h ∧
    (host sampleDb).step h (sampleRecover 1) h' ∧ statuses h.db = [.running] ∧
    ∀ ls h'', (host sampleDb).Run h' ls h'' → ∀ row ∈ h.db.tasks, isIncomplete row.status = true →
      h''.db.board.verdict row.id = some ⟨.interrupted, some restartFailure⟩ := by
  have hrun : ((LTS.exec hostNext sampleHost sampleCrash).bind fun h =>
      (hostNext h (sampleRecover 1)).map fun _ => statuses h.db) = some [.running] := by
    decide +kernel
  obtain ⟨h, hh, hnext⟩ := Option.bind_eq_some_iff.1 hrun
  obtain ⟨h', hs, hstatuses⟩ := Option.map_eq_some_iff.1 hnext
  have hr : (host sampleDb).Reachable h := LTS.reachable_of_exec hostInit_sample hh
  obtain ⟨-, -, -, -, hfinal⟩ := restart_final ⟨[], reflects_migrated _⟩ hr hs
  exact ⟨h, h', hr, hs, hstatuses, fun ls h'' hls row hrow hinc => (hfinal ls h'' hls row hrow hinc).1⟩

end CodingAgent.L4.App.Launches
