import CodingAgent.L2Store.Board

/-!
# Registering repositories (`coding-agent-store/src/repositories.rs`)

`register_repository` with the identity keys of Unix, and the list of the
repositories. A registration touches no task and no event
(`registerRepository_frame`).
-/
namespace CodingAgent.L2.Store
open CodingAgent.L1.Domain

/-- mirrors crates/coding-agent-domain/src/repository.rs:3-9 -/
structure NewRepository where
  selectedPath : CanonicalPath
  displayName : String
  gitRoot : CanonicalPath
  cargoWorkspaceRoot : CanonicalPath
  deriving DecidableEq, Repr

/-- mirrors crates/coding-agent-store/src/repositories.rs:10-14 -/
inductive RegisterRepositoryOutcome where
  | created (repository : Repository)
  | existing (repository : Repository)
  deriving DecidableEq, Repr

/-- mirrors crates/coding-agent-store/src/repositories.rs:116-126 -/
def identityKey (path : CanonicalPath) : String := path.toText.text

/-- `INSERT INTO repositories`: the primary key and the unique pair of keys. -/
def insertRepository (row : RepositoryRow) : Tx Unit := fun db =>
  if db.repositories.any (fun r => r.id = row.id ||
      (r.gitIdentityKey = row.gitIdentityKey && r.cargoIdentityKey = row.cargoIdentityKey)) then
    .error .database
  else .ok ((), { db with repositories := db.repositories ++ [row] })

/-- The `SET` of a registration that is there already. -/
def RepositoryRow.reopen (selectedPath : PathText) (now : UtcTimestamp) (row : RepositoryRow) :
    RepositoryRow :=
  { row with selectedPath, lastOpenedAt := now }

/-- `UPDATE repositories SET … WHERE id = ?`. -/
def updateRepository (id : RepositoryId) (set : RepositoryRow → RepositoryRow) : Tx Unit := fun db =>
  .ok ((), { db with repositories := db.repositories.map fun r => if r.id = id then set r else r })

def selectRepository (p : RepositoryRow → Bool) : Tx (Option RepositoryRow) := fun db =>
  .ok (db.repositories.find? p, db)

/-- mirrors crates/coding-agent-store/src/repositories.rs:17-88 -/
def registerRepository (env : Env) (repositoryId : RepositoryId) (input : NewRepository) :
    Tx RegisterRepositoryOutcome := do
  let gitIdentityKey := identityKey input.gitRoot
  let cargoIdentityKey := identityKey input.cargoWorkspaceRoot
  let now ← currentTimestamp env
  match ← selectRepository fun r =>
      r.gitIdentityKey = gitIdentityKey && r.cargoIdentityKey = cargoIdentityKey with
  | some record =>
    updateRepository record.id (.reopen input.selectedPath.toText now)
    let repository ← Tx.lift (repositoryFromRecord (record.reopen input.selectedPath.toText now))
    pure (.existing repository)
  | none =>
    insertRepository
      { id := repositoryId, selectedPath := input.selectedPath.toText,
        displayName := input.displayName, gitRoot := input.gitRoot.toText,
        cargoWorkspaceRoot := input.cargoWorkspaceRoot.toText, gitIdentityKey, cargoIdentityKey,
        createdAt := now, lastOpenedAt := now }
    pure (.created
      { id := repositoryId, selectedPath := input.selectedPath, displayName := input.displayName,
        gitRoot := input.gitRoot, cargoWorkspaceRoot := input.cargoWorkspaceRoot,
        createdAt := now, lastOpenedAt := now })

/-- mirrors crates/coding-agent-store/src/repositories.rs:90-101 -/
def listRepositories : Tx (List Repository) := fun db =>
  match (db.repositories.insertionSort repositoryOrder).mapM repositoryFromRecord with
  | .error error => .error error
  | .ok repositories => .ok (repositories, db)

/-- Only the table of repositories changes. -/
theorem registerRepository_frame {env : Env} {repositoryId : RepositoryId} {input : NewRepository}
    {db db' : Db} {out : RegisterRepositoryOutcome}
    (hok : registerRepository env repositoryId input db = .ok (out, db')) :
    ∃ repositories, db' = { db with repositories } := by
  simp only [registerRepository, tx_bind_ok] at hok
  obtain ⟨now, db₁, h₁, found, db₂, h₂, h₃⟩ := hok
  obtain ⟨-, rfl⟩ := tx_lift_ok.1 h₁
  simp only [selectRepository, Except.ok.injEq, Prod.mk.injEq] at h₂
  obtain ⟨-, rfl⟩ := h₂
  cases found with
  | some record =>
    simp only [tx_bind_ok] at h₃
    obtain ⟨_, db₃, h₃, repository, db₄, h₄, h₅⟩ := h₃
    cases h₃
    obtain ⟨-, rfl⟩ := tx_lift_ok.1 h₄
    cases h₅
    exact ⟨_, rfl⟩
  | none =>
    simp only [tx_bind_ok] at h₃
    obtain ⟨_, db₃, h₃, h₄⟩ := h₃
    unfold insertRepository at h₃
    split at h₃
    · cases h₃
    · cases h₃
      cases h₄
      exact ⟨_, rfl⟩

theorem Reflects.repositories {db : Db} {log : List TaskEvent} (h : Reflects db log)
    (repositories : List RepositoryRow) : Reflects { db with repositories } log :=
  ⟨h.valid, h.events, h.rows, h.nodup, h.seq⟩

end CodingAgent.L2.Store
