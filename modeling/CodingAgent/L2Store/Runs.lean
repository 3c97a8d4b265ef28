import CodingAgent.Core.Lts
import CodingAgent.L2Store.Repositories

/-!
# Runs of the whole store

The five operations on tasks and `register_repository`, in any order, with any
arguments and environments, from the empty store `migrate` leaves behind. A
call that SQLite fails rolls back.
-/
namespace CodingAgent.L2.Store
open CodingAgent.L1.Domain

inductive StoreCall where
  | task (call : Call)
  | registerRepository (env : Env) (repositoryId : RepositoryId) (input : NewRepository)
    (fault : Bool)

namespace StoreCall

/-- The outcome of a registration; `none` is any error. -/
def register (env : Env) (repositoryId : RepositoryId) (input : NewRepository) (fault : Bool)
    (db : Db) : Option RegisterRepositoryOutcome × Db :=
  if fault then (none, db)
  else
    match Store.registerRepository env repositoryId input db with
    | .ok (outcome, db') => (some outcome, db')
    | .error _ => (none, db)

def run (db : Db) : StoreCall → Db
  | .task call => (call.run db).2
  | .registerRepository env repositoryId input fault => (register env repositoryId input fault db).2

/-- A registration leaves the task tables alone. -/
theorem register_frame (env : Env) (repositoryId : RepositoryId) (input : NewRepository)
    (fault : Bool) (db : Db) :
    ∃ repositories, (register env repositoryId input fault db).2 = { db with repositories } := by
  unfold register
  split
  · exact ⟨db.repositories, rfl⟩
  · split
    · rename_i hok
      exact registerRepository_frame hok
    · exact ⟨db.repositories, rfl⟩

end StoreCall

def store : LTS Db StoreCall := .ofFn (· = Db.migrated []) fun db call => some (call.run db)

theorem store_step {db db' : Db} {call : StoreCall} : store.step db call db' ↔ db' = call.run db :=
  ⟨fun h => (Option.some.inj h).symm, fun h => congrArg some h.symm⟩

/-- One call on a store that reflects a log only appends to the log. -/
theorem StoreCall.run_reflects {db : Db} {log : List TaskEvent} (h : Reflects db log)
    (call : StoreCall) : ∃ new, Reflects (call.run db) (log ++ new) := by
  cases call with
  | task call =>
    obtain ⟨new, hg⟩ := Call.run_reflects h call
    exact ⟨new, hg.reflects⟩
  | registerRepository env repositoryId input fault =>
    obtain ⟨repositories, heq⟩ := register_frame env repositoryId input fault db
    refine ⟨[], ?_⟩
    rw [StoreCall.run, heq, List.append_nil]
    exact h.repositories repositories

theorem store_reflects : store.Inductive fun db => ∃ log, Reflects db log where
  init db hi := ⟨[], by rw [show db = Db.migrated [] from hi]; exact reflects_migrated []⟩
  step db call db' := by
    rintro ⟨log, h⟩ hs
    obtain ⟨new, hr⟩ := call.run_reflects h
    exact ⟨log ++ new, by rw [store_step.1 hs]; exact hr⟩

/-- A reachable store reflects a log. -/
theorem reachable_reflects {db : Db} (h : store.Reachable db) : ∃ log, Reflects db log :=
  store_reflects.reachable db h

/-- A run of the store. -/
def StoreCall.execAll (db : Db) (calls : List StoreCall) : Db := calls.foldl run db

theorem run_execAll (db : Db) (calls : List StoreCall) :
    store.Run db calls (StoreCall.execAll db calls) := by
  induction calls generalizing db with
  | nil => exact .nil db
  | cons call calls ih => exact .cons rfl (ih (call.run db))

theorem reachable_execAll (calls : List StoreCall) :
    store.Reachable (StoreCall.execAll (Db.migrated []) calls) :=
  ⟨_, calls, rfl, run_execAll _ calls⟩

/-! ## A run to look at -/

/-- The `n`-th call of a run: a clock that moves by a nanosecond, and an id
that is its number. -/
def sampleEnv (n : Nat) : Env where
  nowUtc := n
  taskId := ⟨n⟩
  clientRequestId := ⟨n⟩
  rowidGap := fun _ => 0

def sampleRegistration : StoreCall :=
  .registerRepository (sampleEnv 1) ⟨7⟩ ⟨.root, "r", .root, .root⟩ false

def sampleCreation (n : Nat) : Call :=
  { env := sampleEnv n, op := .createTask ⟨⟨8⟩, ⟨7⟩, " prompt "⟩, fault := false }

end CodingAgent.L2.Store
