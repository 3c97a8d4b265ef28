import CodingAgent.L2Store.Runs

/-!
# The identity of a repository

A registration finds a repository by the texts of its two roots, and the rows
hold these texts. Two paths that are not UTF-8 may have one text, and the path
read back from a text is always UTF-8.

* `Registry`: what holds of the rows; `Tracked`: how they come from the
  registrations of a run.
* `identity_counterexample`: two paths, one repository.
* `repositoryIdentity_iff`: a run keeps the identity of its repositories
  exactly if the roots of all its registrations are UTF-8.
-/
namespace CodingAgent.L2.Store
open CodingAgent.L1.Domain

/-! ## Operations on tasks -/

/-- The transaction leaves the repositories alone. -/
structure KeepsRepositories {α : Type} (x : Tx α) : Prop where
  keeps : ∀ db a db', x db = .ok (a, db') → db'.repositories = db.repositories

theorem KeepsRepositories.bind {α β : Type} {x : Tx α} {f : α → Tx β} (hx : KeepsRepositories x)
    (hf : ∀ a, KeepsRepositories (f a)) : KeepsRepositories (x >>= f) := by
  refine ⟨fun db b db' h => ?_⟩
  obtain ⟨a, db₁, h₁, h₂⟩ := tx_bind_ok.1 h
  exact ((hf a).keeps db₁ b db' h₂).trans (hx.keeps db a db₁ h₁)

theorem KeepsRepositories.map {α β : Type} {x : Tx α} (hx : KeepsRepositories x) (f : α → β) :
    KeepsRepositories (f <$> x) := by
  refine ⟨fun db b db' h => ?_⟩
  obtain ⟨a, ha, -⟩ := tx_map_ok.1 h
  exact hx.keeps db a db' ha

theorem keeps_pure {α : Type} (a : α) : KeepsRepositories (pure a : Tx α) := by
  refine ⟨fun db b db' h => ?_⟩
  cases h
  rfl

theorem keeps_fail {α : Type} (error : StoreError) : KeepsRepositories (Tx.fail error : Tx α) := by
  refine ⟨fun db a db' h => ?_⟩
  cases h

theorem keeps_lift {α : Type} (value : Except StoreError α) : KeepsRepositories (Tx.lift value) := by
  refine ⟨fun db a db' h => ?_⟩
  rw [show db' = db from (tx_lift_ok.1 h).2]

theorem keeps_okOr {α : Type} (value : Option α) (error : StoreError) :
    KeepsRepositories (okOr value error) := by
  cases value
  · exact keeps_fail error
  · exact keeps_pure _

theorem keeps_ensureExactlyOne (rows : Nat) (message : String) :
    KeepsRepositories (ensureExactlyOne rows message) := by
  unfold ensureExactlyOne
  split
  · exact keeps_pure _
  · exact keeps_fail _

theorem keeps_updateTasks (p : TaskRow → Bool) (set : TaskRow → TaskRow) :
    KeepsRepositories (updateTasks p set) := by
  refine ⟨fun db a db' h => ?_⟩
  cases h
  rfl

theorem keeps_updateEvents (p : EventRow → Bool) (payload : PayloadJson) :
    KeepsRepositories (updateEvents p payload) := by
  refine ⟨fun db a db' h => ?_⟩
  cases h
  rfl

theorem keeps_insertEventRow (env : Env) (taskId : TaskId) (kind : TaskEventKind)
    (payload : PayloadJson) (createdAt : UtcTimestamp) :
    KeepsRepositories (insertEventRow env taskId kind payload createdAt) := by
  refine ⟨fun db a db' h => ?_⟩
  unfold insertEventRow at h
  split at h
  · cases h
  · dsimp only at h
    split at h
    · cases h
    · cases h
      rfl

theorem keeps_loadTaskWhere (p : TaskRow → Bool) : KeepsRepositories (loadTaskWhere p) := by
  have hselect : KeepsRepositories (selectTask p) := by
    refine ⟨fun db a db' h => ?_⟩
    cases h
    rfl
  refine hselect.bind fun found => ?_
  cases found with
  | none => exact keeps_pure _
  | some record => exact (keeps_lift _).bind fun _ => keeps_pure _

theorem keeps_insertEvent (env : Env) (taskId : TaskId) (kind : TaskEventKind)
    (payload : PayloadJson) (createdAt : UtcTimestamp) :
    KeepsRepositories (insertEvent env taskId kind payload createdAt) :=
  (keeps_insertEventRow ..).bind fun _ => keeps_lift _

theorem keeps_appendLifecycleEvent (env : Env) (taskId : TaskId) (kind : TaskEventKind)
    (createdAt : UtcTimestamp) :
    KeepsRepositories (appendLifecycleEvent env taskId kind createdAt) := by
  refine (keeps_insertEvent ..).bind fun eventId => ?_
  refine (keeps_updateTasks ..).bind fun updated => ?_
  refine (keeps_ensureExactlyOne ..).bind fun _ => ?_
  refine (keeps_loadTaskWhere _).bind fun found => ?_
  refine (keeps_okOr ..).bind fun task => ?_
  refine (keeps_lift _).bind fun payload => ?_
  refine (keeps_updateEvents ..).bind fun updated => ?_
  exact (keeps_ensureExactlyOne ..).bind fun _ => keeps_pure _

theorem keeps_insertTask (row : TaskRow) : KeepsRepositories (insertTask row) := by
  refine ⟨fun db a db' h => ?_⟩
  rw [(insertTask_ok h).2]

theorem keeps_createTask (env : Env) (input : NewTask) :
    KeepsRepositories (createTask env input) := by
  refine (keeps_lift _).bind fun input => ?_
  refine (keeps_loadTaskWhere _).bind fun found => ?_
  cases found with
  | some existing =>
    dsimp only
    split
    · exact keeps_fail _
    · exact keeps_pure _
  | none =>
    refine (keeps_lift _).bind fun now => ?_
    refine (keeps_insertTask _).bind fun _ => ?_
    exact (keeps_appendLifecycleEvent ..).bind fun _ => keeps_pure _

theorem keeps_retryTask (env : Env) (sourceId : TaskId) :
    KeepsRepositories (retryTask env sourceId) := by
  refine (keeps_loadTaskWhere _).bind fun found => ?_
  refine (keeps_okOr ..).bind fun source => ?_
  split
  · exact keeps_fail _
  · refine (keeps_loadTaskWhere _).bind fun child => ?_
    cases child with
    | some existing => exact keeps_pure _
    | none =>
      dsimp only
      split
      · exact keeps_fail _
      · refine (keeps_lift _).bind fun now => ?_
        refine (keeps_insertTask _).bind fun _ => ?_
        exact (keeps_appendLifecycleEvent ..).bind fun _ => keeps_pure _

theorem keeps_transitionWithEvent (env : Env) (taskId : TaskId) (expected : TaskStatus)
    (transition : TaskTransition) :
    KeepsRepositories (transitionWithEvent env taskId expected transition) := by
  unfold transitionWithEvent
  dsimp only
  split
  · exact keeps_fail _
  · refine (keeps_lift _).bind fun now => ?_
    refine (keeps_updateTasks ..).bind fun updated => ?_
    split
    · refine (keeps_loadTaskWhere _).bind fun found => ?_
      exact (keeps_okOr ..).bind fun _ => keeps_pure _
    · refine (keeps_ensureExactlyOne ..).bind fun _ => ?_
      exact (keeps_appendLifecycleEvent ..).bind fun _ => keeps_pure _

theorem keeps_appendRunningEvent (env : Env) (taskId : TaskId) (payload : TaskEventPayload) :
    KeepsRepositories (appendRunningEvent env taskId payload) := by
  unfold appendRunningEvent
  split
  · exact keeps_fail _
  · refine (keeps_loadTaskWhere _).bind fun found => ?_
    refine (keeps_okOr ..).bind fun current => ?_
    split
    · exact keeps_pure _
    · refine (keeps_lift _).bind fun now => ?_
      refine (keeps_insertEvent ..).bind fun eventId => ?_
      refine (keeps_updateTasks ..).bind fun updated => ?_
      exact (keeps_ensureExactlyOne ..).bind fun _ => keeps_pure _

theorem keeps_recoverTasks (env : Env) (now : UtcTimestamp) (failure : TaskFailure)
    (taskIds : List TaskId) : KeepsRepositories (recoverTasks env now failure taskIds) := by
  induction taskIds with
  | nil => exact keeps_pure _
  | cons taskId taskIds ih =>
    refine (keeps_updateTasks ..).bind fun updated => ?_
    refine (keeps_ensureExactlyOne ..).bind fun _ => ?_
    refine (keeps_appendLifecycleEvent ..).bind fun appended => ?_
    exact ih.bind fun _ => keeps_pure _

/-- No operation on tasks touches a repository. -/
theorem Call.run_repositories (call : Call) (db : Db) :
    (call.run db).2.repositories = db.repositories := by
  have hop : KeepsRepositories (call.op.tx call.env) := by
    cases call.op with
    | createTask input => exact (keeps_createTask _ input).map _
    | retryTask sourceId => exact (keeps_retryTask _ sourceId).map _
    | transitionWithEvent taskId expected transition =>
      exact (keeps_transitionWithEvent _ taskId expected transition).map _
    | appendRunningEvent taskId payload => exact (keeps_appendRunningEvent _ taskId payload).map _
    | recoverIncomplete now failure =>
      refine KeepsRepositories.map (KeepsRepositories.bind ?_ fun taskIds => ?_) _
      · refine ⟨fun db a db' h => ?_⟩
        cases h
        rfl
      · refine (keeps_recoverTasks _ now failure taskIds).bind fun eventIds => ?_
        refine KeepsRepositories.bind ?_ fun _ => keeps_pure _
        refine ⟨fun db a db' h => ?_⟩
        cases h
        rfl
  unfold Call.run
  split
  · rfl
  · split
    · rename_i hok
      exact hop.keeps db _ _ hok
    · rfl

/-! ## Registrations -/

def RegisterRepositoryOutcome.repository : RegisterRepositoryOutcome → Repository
  | .created repository | .existing repository => repository

/-- A registration that succeeded. -/
structure Registration where
  input : NewRepository
  outcome : RegisterRepositoryOutcome
  deriving DecidableEq

/-- What a call registers. -/
def StoreCall.registered (db : Db) : StoreCall → Option Registration
  | .task _ => none
  | .registerRepository env repositoryId input fault =>
    (register env repositoryId input fault db).1.map fun outcome => ⟨input, outcome⟩

/-- The registrations of a run. -/
def registrations : Db → List StoreCall → List Registration
  | _, [] => []
  | db, call :: calls => (call.registered db).toList ++ registrations (call.run db) calls

theorem registrations_append (db : Db) (a b : List StoreCall) :
    registrations db (a ++ b) = registrations db a ++ registrations (StoreCall.execAll db a) b := by
  induction a generalizing db with
  | nil => rfl
  | cons call calls ih =>
    rw [List.cons_append, registrations, registrations, ih, List.append_assoc]
    rfl

theorem execAll_append (db : Db) (a b : List StoreCall) :
    StoreCall.execAll db (a ++ b) = StoreCall.execAll (StoreCall.execAll db a) b :=
  List.foldl_append

theorem mem_registrations {db : Db} {calls : List StoreCall} {a : Registration} :
    a ∈ registrations db calls ↔ ∃ pre call post, calls = pre ++ call :: post ∧
      call.registered (StoreCall.execAll db pre) = some a := by
  constructor
  · intro h
    induction calls generalizing db with
    | nil => cases h
    | cons call calls ih =>
      rcases List.mem_append.1 h with h | h
      · exact ⟨[], call, calls, rfl, Option.mem_toList.1 h⟩
      · obtain ⟨pre, next, post, rfl, hreg⟩ := ih h
        exact ⟨call :: pre, next, post, rfl, hreg⟩
  · rintro ⟨pre, call, post, rfl, hreg⟩
    rw [registrations_append, registrations]
    exact List.mem_append_right _ (List.mem_append_left _ (Option.mem_toList.2 hreg))

/-- The row that a registration of these roots finds. -/
def RepositoryRow.Matches (row : RepositoryRow) (input : NewRepository) : Prop :=
  row.gitIdentityKey = identityKey input.gitRoot ∧
    row.cargoIdentityKey = identityKey input.cargoWorkspaceRoot

/-- What a registration does: it reopens the row of its keys, or it appends the
first row of them. -/
inductive Registers (input : NewRepository) (db : Db) : RegisterRepositoryOutcome → Db → Prop where
  | existing (row : RepositoryRow) (now : UtcTimestamp) (mem : row ∈ db.repositories)
    (keys : row.Matches input) :
    Registers input db (.existing (row.reopen input.selectedPath.toText now).repository)
      { db with repositories := db.repositories.map fun r =>
          if r.id = row.id then r.reopen input.selectedPath.toText now else r }
  | created (row : RepositoryRow) (repository : Repository)
    (fresh : ∀ r ∈ db.repositories, r.id ≠ row.id ∧ ¬ r.Matches input)
    (keys : row.Matches input) (id : row.id = repository.id)
    (gitText : row.gitRoot = input.gitRoot.toText)
    (cargoText : row.cargoWorkspaceRoot = input.cargoWorkspaceRoot.toText)
    (git : repository.gitRoot = input.gitRoot)
    (cargo : repository.cargoWorkspaceRoot = input.cargoWorkspaceRoot) :
    Registers input db (.created repository)
      { db with repositories := db.repositories ++ [row] }

theorem registerRepository_registers {env : Env} {repositoryId : RepositoryId}
    {input : NewRepository} {db db' : Db} {outcome : RegisterRepositoryOutcome}
    (hok : registerRepository env repositoryId input db = .ok (outcome, db')) :
    Registers input db outcome db' := by
  simp only [registerRepository, tx_bind_ok] at hok
  obtain ⟨now, db₁, h₁, found, db₂, h₂, h₃⟩ := hok
  obtain ⟨-, rfl⟩ := tx_lift_ok.1 h₁
  simp only [selectRepository, Except.ok.injEq, Prod.mk.injEq] at h₂
  obtain ⟨hfound, rfl⟩ := h₂
  cases found with
  | some row =>
    simp only [tx_bind_ok, repositoryFromRecord_eq] at h₃
    obtain ⟨_, db₃, h₃, repository, db₄, h₄, h₅⟩ := h₃
    cases h₃
    cases h₄
    cases h₅
    have hkeys := List.find?_some hfound
    simp only [Bool.and_eq_true, decide_eq_true_eq] at hkeys
    exact .existing row now (List.mem_of_find?_eq_some hfound) hkeys
  | none =>
    simp only [tx_bind_ok] at h₃
    obtain ⟨_, db₃, h₃, h₄⟩ := h₃
    unfold insertRepository at h₃
    split at h₃
    · cases h₃
    · rename_i hfresh
      cases h₃
      cases h₄
      refine .created _ _ (fun r hr => ?_) ⟨rfl, rfl⟩ rfl rfl rfl rfl rfl
      simp only [List.any_eq_true, Bool.or_eq_true, Bool.and_eq_true, decide_eq_true_eq,
        not_exists, not_and, not_or] at hfresh
      obtain ⟨hid, hkeys⟩ := hfresh r hr
      exact ⟨hid, fun hm => hkeys hm.1 hm.2⟩

theorem registered_registers {db : Db} {call : StoreCall} {registration : Registration}
    (h : call.registered db = some registration) :
    Registers registration.input db registration.outcome (call.run db) := by
  cases call with
  | task call => cases h
  | registerRepository env repositoryId input fault =>
    obtain ⟨outcome, hout, rfl⟩ := Option.map_eq_some_iff.1 h
    show Registers input db outcome (StoreCall.register env repositoryId input fault db).2
    unfold StoreCall.register at hout ⊢
    split at hout
    · cases hout
    · rename_i hfault
      rw [if_neg hfault]
      split at hout
      · rename_i hok
        cases hout
        exact registerRepository_registers hok
      · cases hout

/-- Without a registration the repositories stay. -/
theorem run_unregistered {db : Db} {call : StoreCall} (h : call.registered db = none) :
    (call.run db).repositories = db.repositories := by
  cases call with
  | task call => exact call.run_repositories db
  | registerRepository env repositoryId input fault =>
    have hout : (StoreCall.register env repositoryId input fault db).1 = none :=
      Option.map_eq_none_iff.1 h
    show (StoreCall.register env repositoryId input fault db).2.repositories = _
    unfold StoreCall.register at hout ⊢
    split at hout
    · rename_i hfault
      rw [if_pos hfault]
    · rename_i hfault
      rw [if_neg hfault]
      split at hout
      · cases hout
      · rfl

/-! ## The rows and the registrations -/

/-- The constraints of the table: ids and key pairs are unique, and a row is
found by the texts of its roots. -/
structure Registry (db : Db) : Prop where
  ids : ∀ a ∈ db.repositories, ∀ b ∈ db.repositories, a.id = b.id → a = b
  keys : ∀ a ∈ db.repositories, ∀ b ∈ db.repositories, a.gitRoot = b.gitRoot →
    a.cargoWorkspaceRoot = b.cargoWorkspaceRoot → a = b
  texts : ∀ row ∈ db.repositories, row.gitIdentityKey = row.gitRoot.text ∧
    row.cargoIdentityKey = row.cargoWorkspaceRoot.text

theorem PathText.ext_text {a b : PathText} (h : a.text = b.text) : a = b := by
  cases a
  cases b
  cases h
  rfl

/-- The row of a registration has the texts of its roots. -/
theorem Registry.texts_of_matches {db : Db} (h : Registry db) {row : RepositoryRow}
    (hrow : row ∈ db.repositories) {input : NewRepository} (hkeys : row.Matches input) :
    row.gitRoot = input.gitRoot.toText ∧
      row.cargoWorkspaceRoot = input.cargoWorkspaceRoot.toText := by
  obtain ⟨hgit, hcargo⟩ := h.texts row hrow
  exact ⟨PathText.ext_text (hgit.symm.trans hkeys.1), PathText.ext_text (hcargo.symm.trans hkeys.2)⟩

theorem Registry.registers {db db' : Db} {input : NewRepository}
    {outcome : RegisterRepositoryOutcome} (h : Registry db)
    (hr : Registers input db outcome db') : Registry db' := by
  cases hr with
  | existing row now mem keys =>
    -- a reopened row keeps its id, its roots and its keys
    have hback : ∀ r' ∈ db.repositories.map (fun r =>
        if r.id = row.id then r.reopen input.selectedPath.toText now else r),
        ∃ r ∈ db.repositories, r' = (if r.id = row.id then
            r.reopen input.selectedPath.toText now else r) ∧ r'.id = r.id ∧
          r'.gitRoot = r.gitRoot ∧ r'.cargoWorkspaceRoot = r.cargoWorkspaceRoot ∧
          r'.gitIdentityKey = r.gitIdentityKey ∧ r'.cargoIdentityKey = r.cargoIdentityKey := by
      intro r' hr'
      obtain ⟨r, hr, rfl⟩ := List.mem_map.1 hr'
      refine ⟨r, hr, rfl, ?_⟩
      split <;> exact ⟨rfl, rfl, rfl, rfl, rfl⟩
    refine ⟨fun a' ha' b' hb' hid => ?_, fun a' ha' b' hb' hgit hcargo => ?_, fun r' hr' => ?_⟩
    · obtain ⟨a, ha, rfl, haid, -⟩ := hback a' ha'
      obtain ⟨b, hb, rfl, hbid, -⟩ := hback b' hb'
      rw [h.ids a ha b hb (haid.symm.trans (hid.trans hbid))]
    · obtain ⟨a, ha, rfl, -, hagit, hacargo, -⟩ := hback a' ha'
      obtain ⟨b, hb, rfl, -, hbgit, hbcargo, -⟩ := hback b' hb'
      rw [h.keys a ha b hb (hagit.symm.trans (hgit.trans hbgit))
        (hacargo.symm.trans (hcargo.trans hbcargo))]
    · obtain ⟨r, hr, -, -, hgit, hcargo, hgitKey, hcargoKey⟩ := hback r' hr'
      rw [hgit, hcargo, hgitKey, hcargoKey]
      exact h.texts r hr
  | created row repository fresh keys id gitText cargoText git cargo =>
    have hold : ∀ r ∈ db.repositories, r.gitRoot = row.gitRoot →
        r.cargoWorkspaceRoot ≠ row.cargoWorkspaceRoot := by
      intro r hr hgit hcargo
      refine (fresh r hr).2 ⟨?_, ?_⟩
      · rw [(h.texts r hr).1, hgit, gitText]
        rfl
      · rw [(h.texts r hr).2, hcargo, cargoText]
        rfl
    have hmem : ∀ r ∈ db.repositories ++ [row], r ∈ db.repositories ∨ r = row := by
      intro r hr
      simpa using hr
    refine ⟨fun a ha b hb hid => ?_, fun a ha b hb hgit hcargo => ?_, fun r hr => ?_⟩
    · rcases hmem a ha with haold | rfl <;> rcases hmem b hb with hbold | rfl
      · exact h.ids a haold b hbold hid
      · exact absurd hid (fresh a haold).1
      · exact absurd hid.symm (fresh b hbold).1
      · rfl
    · rcases hmem a ha with haold | rfl <;> rcases hmem b hb with hbold | rfl
      · exact h.keys a haold b hbold hgit hcargo
      · exact absurd hcargo (hold a haold hgit)
      · exact absurd hcargo.symm (hold b hbold hgit.symm)
      · rfl
    · rcases hmem r hr with hrold | rfl
      · exact h.texts r hrold
      · exact ⟨by rw [keys.1, gitText]; rfl, by rw [keys.2, cargoText]; rfl⟩

/-- How the rows come from the registrations so far. -/
structure Tracked (history : List Registration) (db : Db) : Prop where
  registry : Registry db
  row : ∀ a ∈ history, ∃ row ∈ db.repositories, row.id = a.outcome.repository.id ∧
    row.gitRoot = a.input.gitRoot.toText ∧
    row.cargoWorkspaceRoot = a.input.cargoWorkspaceRoot.toText
  origin : ∀ row ∈ db.repositories, ∃ a ∈ history, ∃ repository,
    a.outcome = .created repository ∧ repository.id = row.id
  exact : ∀ a ∈ history, ∀ repository, a.outcome = .created repository →
    repository.gitRoot = a.input.gitRoot ∧
      repository.cargoWorkspaceRoot = a.input.cargoWorkspaceRoot

theorem Tracked.registers {history : List Registration} {db db' : Db} {input : NewRepository}
    {outcome : RegisterRepositoryOutcome} (h : Tracked history db)
    (hr : Registers input db outcome db') : Tracked (history ++ [⟨input, outcome⟩]) db' := by
  refine ⟨h.registry.registers hr, ?_, ?_, ?_⟩
  · -- a row of an earlier registration keeps its id and roots
    have hkept : ∀ r ∈ db.repositories, ∃ r' ∈ db'.repositories, r'.id = r.id ∧
        r'.gitRoot = r.gitRoot ∧ r'.cargoWorkspaceRoot = r.cargoWorkspaceRoot := by
      intro r hmem
      cases hr with
      | existing row now mem keys =>
        refine ⟨_, List.mem_map.2 ⟨r, hmem, rfl⟩, ?_⟩
        split <;> exact ⟨rfl, rfl, rfl⟩
      | created row => exact ⟨r, List.mem_append_left _ hmem, rfl, rfl, rfl⟩
    intro b hb
    rcases List.mem_append.1 hb with hb | hb
    · obtain ⟨r, hmem, hid, hgit, hcargo⟩ := h.row b hb
      obtain ⟨r', hmem', hid', hgit', hcargo'⟩ := hkept r hmem
      exact ⟨r', hmem', hid'.trans hid, hgit'.trans hgit, hcargo'.trans hcargo⟩
    · obtain rfl := List.mem_singleton.1 hb
      cases hr with
      | existing row now mem keys =>
        obtain ⟨hgit, hcargo⟩ := h.registry.texts_of_matches mem keys
        exact ⟨_, List.mem_map.2 ⟨row, mem, if_pos rfl⟩, rfl, hgit, hcargo⟩
      | created row repository fresh keys id gitText cargoText git cargo =>
        exact ⟨row, List.mem_append_right _ List.mem_cons_self, id, gitText, cargoText⟩
  · intro r hmem
    cases hr with
    | existing row now mem keys =>
      obtain ⟨old, hold, rfl⟩ := List.mem_map.1 hmem
      obtain ⟨b, hb, repository, hout, hid⟩ := h.origin old hold
      refine ⟨b, List.mem_append_left _ hb, repository, hout, hid.trans ?_⟩
      split <;> rfl
    | created row repository fresh keys id gitText cargoText git cargo =>
      rcases List.mem_append.1 hmem with hmem | hmem
      · obtain ⟨b, hb, hrest⟩ := h.origin r hmem
        exact ⟨b, List.mem_append_left _ hb, hrest⟩
      · obtain rfl := List.mem_singleton.1 hmem
        exact ⟨_, List.mem_append_right _ List.mem_cons_self, repository, rfl, id.symm⟩
  · intro b hb repository hout
    rcases List.mem_append.1 hb with hb | hb
    · exact h.exact b hb repository hout
    · obtain rfl := List.mem_singleton.1 hb
      cases hout
      cases hr with
      | created row _ fresh keys id gitText cargoText git cargo => exact ⟨git, cargo⟩

theorem Tracked.of_repositories {history : List Registration} {db db' : Db} (h : Tracked history db)
    (heq : db'.repositories = db.repositories) : Tracked history db' := by
  obtain ⟨⟨ids, keys, texts⟩, row, origin, exact⟩ := h
  rw [← heq] at ids keys texts row origin
  exact ⟨⟨ids, keys, texts⟩, row, origin, exact⟩

theorem Tracked.execAll {history : List Registration} {db : Db} (h : Tracked history db)
    (calls : List StoreCall) :
    Tracked (history ++ registrations db calls) (StoreCall.execAll db calls) := by
  induction calls generalizing history db with
  | nil => rwa [registrations, List.append_nil]
  | cons call calls ih =>
    rw [registrations, ← List.append_assoc]
    refine ih ?_
    cases hreg : call.registered db with
    | none => simpa using h.of_repositories (run_unregistered hreg)
    | some a => exact h.registers (registered_registers hreg)

/-- The rows of a run are tracked from the empty store on. -/
theorem tracked_execAll (calls : List StoreCall) :
    Tracked (registrations (.migrated []) calls) (StoreCall.execAll (.migrated []) calls) := by
  have hempty : Tracked [] (.migrated []) :=
    ⟨⟨List.forall_mem_nil _, List.forall_mem_nil _, List.forall_mem_nil _⟩,
      List.forall_mem_nil _, List.forall_mem_nil _, List.forall_mem_nil _⟩
  exact hempty.execAll calls

/-! ## The contract -/

/-- The list has the repository, with the roots it was registered with. -/
structure Shows (repositories : List Repository) (id : RepositoryId) (input : NewRepository) :
    Prop where
  present : ∃ r ∈ repositories, r.id = id
  roots : ∀ r ∈ repositories, r.id = id →
    r.gitRoot = input.gitRoot ∧ r.cargoWorkspaceRoot = input.cargoWorkspaceRoot

/-- A run from the empty store keeps the identity of its repositories. -/
structure RepositoryIdentity (calls : List StoreCall) : Prop where
  /-- One id for one pair of roots. -/
  identity : ∀ a ∈ registrations (.migrated []) calls, ∀ b ∈ registrations (.migrated []) calls,
    a.outcome.repository.id = b.outcome.repository.id ↔
      a.input.gitRoot = b.input.gitRoot ∧ a.input.cargoWorkspaceRoot = b.input.cargoWorkspaceRoot
  /-- A created repository has the roots of its registration, and so does every later read. -/
  created : ∀ pre call mid post, calls = pre ++ call :: (mid ++ post) → ∀ input repository,
    call.registered (StoreCall.execAll (.migrated []) pre) = some ⟨input, .created repository⟩ →
    (repository.gitRoot = input.gitRoot ∧
      repository.cargoWorkspaceRoot = input.cargoWorkspaceRoot) ∧
    (∃ list, listRepositories (StoreCall.execAll (.migrated []) (pre ++ call :: mid)) =
        .ok (list, StoreCall.execAll (.migrated []) (pre ++ call :: mid)) ∧
      Shows list repository.id input) ∧
    ∃ snapshot, bootstrapSnapshot (StoreCall.execAll (.migrated []) (pre ++ call :: mid)) =
        .ok (snapshot, StoreCall.execAll (.migrated []) (pre ++ call :: mid)) ∧
      Shows snapshot.repositories repository.id input
  /-- A registration of a repository that is there updates two columns of its row, and returns
  the row. -/
  existing : ∀ pre call post, calls = pre ++ call :: post → ∀ input repository,
    call.registered (StoreCall.execAll (.migrated []) pre) = some ⟨input, .existing repository⟩ →
    ∃ row ∈ (StoreCall.execAll (.migrated []) pre).repositories,
      repository = (row.reopen input.selectedPath.toText repository.lastOpenedAt).repository ∧
      StoreCall.execAll (.migrated []) (pre ++ [call]) =
        { StoreCall.execAll (.migrated []) pre with
          repositories := (StoreCall.execAll (.migrated []) pre).repositories.map fun r =>
            if r.id = repository.id then
              r.reopen input.selectedPath.toText repository.lastOpenedAt
            else r }

/-- The condition: paths that have a text. -/
def Registration.IsUtf8 (a : Registration) : Prop :=
  a.input.gitRoot.IsUtf8 ∧ a.input.cargoWorkspaceRoot.IsUtf8

/-- What `list_repositories` returns. -/
def listed (db : Db) : List Repository :=
  (db.repositories.insertionSort repositoryOrder).map (·.repository)

theorem mem_listed {db : Db} {r : Repository} :
    r ∈ listed db ↔ ∃ row ∈ db.repositories, row.repository = r := by
  simp [listed, List.mem_insertionSort]

theorem listRepositories_eq (db : Db) : listRepositories db = .ok (listed db, db) := by
  have hrows : (db.repositories.insertionSort repositoryOrder).mapM repositoryFromRecord =
      .ok (listed db) := mapM_eq_ok fun row _ => repositoryFromRecord_eq row
  unfold listRepositories
  rw [hrows]

/-- A read shows the roots of a registration exactly if they are UTF-8. -/
theorem Tracked.shows {history : List Registration} {db : Db} (h : Tracked history db)
    {a : Registration} (ha : a ∈ history) :
    Shows (listed db) a.outcome.repository.id a.input ↔ a.IsUtf8 := by
  obtain ⟨row, hrow, hid, hgit, hcargo⟩ := h.row a ha
  have hread : row.repository.gitRoot = a.input.gitRoot ↔ a.input.gitRoot.IsUtf8 := by
    rw [← CanonicalPath.ofText_toText, ← hgit]
    rfl
  have hread' : row.repository.cargoWorkspaceRoot = a.input.cargoWorkspaceRoot ↔
      a.input.cargoWorkspaceRoot.IsUtf8 := by
    rw [← CanonicalPath.ofText_toText, ← hcargo]
    rfl
  constructor
  · intro hshows
    obtain ⟨hroot, hroot'⟩ := hshows.roots _ (mem_listed.2 ⟨row, hrow, rfl⟩) hid
    exact ⟨hread.1 hroot, hread'.1 hroot'⟩
  · rintro ⟨hutf, hutf'⟩
    refine ⟨⟨_, mem_listed.2 ⟨row, hrow, rfl⟩, hid⟩, fun r hr hrid => ?_⟩
    obtain ⟨other, hother, rfl⟩ := mem_listed.1 hr
    obtain rfl := h.registry.ids other hother row hrow (hrid.trans hid.symm)
    exact ⟨hread.2 hutf, hread'.2 hutf'⟩

/-- UTF-8 roots with one text are one path. -/
theorem toText_inj {p q : CanonicalPath} (hp : p.IsUtf8) (hq : q.IsUtf8)
    (h : p.toText = q.toText) : p = q := by
  rw [← CanonicalPath.ofText_toText.2 hp, h, CanonicalPath.ofText_toText.2 hq]

/-- Registrations of UTF-8 roots have one id exactly if they have one pair of roots. -/
theorem Tracked.identity {history : List Registration} {db : Db} (h : Tracked history db)
    {a b : Registration} (ha : a ∈ history) (hb : b ∈ history) (hutf : a.IsUtf8)
    (hutf' : b.IsUtf8) :
    a.outcome.repository.id = b.outcome.repository.id ↔
      a.input.gitRoot = b.input.gitRoot ∧
        a.input.cargoWorkspaceRoot = b.input.cargoWorkspaceRoot := by
  obtain ⟨row, hrow, hid, hgit, hcargo⟩ := h.row a ha
  obtain ⟨row', hrow', hid', hgit', hcargo'⟩ := h.row b hb
  constructor
  · intro heq
    obtain rfl := h.registry.ids row hrow row' hrow' (hid.trans (heq.trans hid'.symm))
    exact ⟨toText_inj hutf.1 hutf'.1 (hgit.symm.trans hgit'),
      toText_inj hutf.2 hutf'.2 (hcargo.symm.trans hcargo')⟩
  · rintro ⟨hroot, hroot'⟩
    rw [hroot] at hgit
    rw [hroot'] at hcargo
    obtain rfl := h.registry.keys row hrow row' hrow' (hgit.trans hgit'.symm)
      (hcargo.trans hcargo'.symm)
    exact hid.symm.trans hid'

/-- **Repository identity.** A run keeps the identity of its repositories exactly
if the roots of all its registrations are UTF-8. -/
theorem repositoryIdentity_iff (calls : List StoreCall) :
    RepositoryIdentity calls ↔ ∀ a ∈ registrations (.migrated []) calls, a.IsUtf8 := by
  have htracked := tracked_execAll calls
  constructor
  · intro h a ha
    -- the registration that created the row, with the roots of `a`
    obtain ⟨row, hrow, hid, -, -⟩ := htracked.row a ha
    obtain ⟨b, hb, repository, hcreated, hbid⟩ := htracked.origin row hrow
    have hsame : a.outcome.repository.id = b.outcome.repository.id := by
      rw [hcreated]
      exact hid.symm.trans hbid.symm
    obtain ⟨hroot, hroot'⟩ := (h.identity a ha b hb).1 hsame
    have hutf : b.IsUtf8 := by
      obtain ⟨pre, call, post, hsplit, hreg⟩ := mem_registrations.1 hb
      obtain ⟨input, outcome⟩ := b
      cases hcreated
      obtain ⟨-, ⟨list, hlist, hshows⟩, -⟩ :=
        h.created pre call post [] (by rw [List.append_nil, hsplit]) input repository hreg
      rw [← hsplit, listRepositories_eq] at hlist
      cases hlist
      exact (htracked.shows hb).1 hshows
    unfold Registration.IsUtf8
    rw [hroot, hroot']
    exact hutf
  · intro hutf
    refine ⟨fun a ha b hb => htracked.identity ha hb (hutf a ha) (hutf b hb), ?_, ?_⟩
    · intro pre call mid post hsplit input repository hreg
      have hmem : (⟨input, .created repository⟩ : Registration) ∈
          registrations (.migrated []) (pre ++ call :: mid) :=
        mem_registrations.2 ⟨pre, call, mid, rfl, hreg⟩
      have hutf := hutf ⟨input, .created repository⟩
        (mem_registrations.2 ⟨pre, call, mid ++ post, hsplit, hreg⟩)
      have hpre := tracked_execAll (pre ++ call :: mid)
      have hshows := (hpre.shows hmem).2 hutf
      refine ⟨hpre.exact _ hmem repository rfl, ⟨_, listRepositories_eq _, hshows⟩, ?_⟩
      obtain ⟨log, hlog⟩ := reachable_reflects (reachable_execAll (pre ++ call :: mid))
      obtain ⟨snapshot, hsnapshot, -⟩ := bootstrapSnapshot_reflects hlog
      refine ⟨snapshot, hsnapshot, ?_⟩
      rw [bootstrapSnapshot_repositories hsnapshot]
      exact hshows
    · intro pre call post hsplit input repository hreg
      have hr : Registers input _ (.existing repository) _ := registered_registers hreg
      rw [execAll_append]
      show ∃ row ∈ _, _ ∧ StoreCall.run (StoreCall.execAll (.migrated []) pre) call = _
      generalize StoreCall.run (StoreCall.execAll (.migrated []) pre) call = db' at hr ⊢
      cases hr with
      | existing row now mem keys => exact ⟨row, mem, rfl, rfl⟩

/-! ## Two paths, one repository -/

/-- `/a` and a byte that is not UTF-8. -/
def sampleRoot (byte : UInt8) (h : isCanonical [slash, 97, byte] = true) : CanonicalPath :=
  ⟨[slash, 97, byte], h⟩

def sampleIdentityRun : List StoreCall :=
  [.registerRepository (sampleEnv 1) ⟨7⟩
      ⟨.root, "r", sampleRoot 0xFF (by decide), .root⟩ false,
    .registerRepository (sampleEnv 2) ⟨8⟩
      ⟨.root, "r", sampleRoot 0xFE (by decide), .root⟩ false]

/-- Two registrations of two paths have one id. -/
theorem identity_counterexample :
    (registrations (.migrated []) sampleIdentityRun).map (fun a =>
        (a.outcome.repository.id, a.input.gitRoot.path)) =
      [(⟨7⟩, [slash, 97, 0xFF]), (⟨7⟩, [slash, 97, 0xFE])] ∧
    ¬ RepositoryIdentity sampleIdentityRun := by
  have hrun : (registrations (.migrated []) sampleIdentityRun).map (fun a =>
        (a.outcome.repository.id, a.input.gitRoot.path)) =
      [(⟨7⟩, [slash, 97, 0xFF]), (⟨7⟩, [slash, 97, 0xFE])] := by decide +kernel
  refine ⟨hrun, fun h => ?_⟩
  have hmem : ∀ byte : UInt8, ((⟨7⟩, [slash, 97, byte]) : RepositoryId × PathBuf) ∈
      (registrations (.migrated []) sampleIdentityRun).map (fun a =>
        (a.outcome.repository.id, a.input.gitRoot.path)) →
      ∃ a ∈ registrations (.migrated []) sampleIdentityRun, a.outcome.repository.id = ⟨7⟩ ∧
        a.input.gitRoot.path = [slash, 97, byte] := by
    intro byte hbyte
    obtain ⟨a, ha, heq⟩ := List.mem_map.1 hbyte
    exact ⟨a, ha, (Prod.mk.inj heq).1, (Prod.mk.inj heq).2⟩
  obtain ⟨a, ha, haid, hapath⟩ := hmem 0xFF (by rw [hrun]; decide)
  obtain ⟨b, hb, hbid, hbpath⟩ := hmem 0xFE (by rw [hrun]; decide)
  have hroot := ((h.identity a ha b hb).1 (haid.trans hbid.symm)).1
  rw [hroot, hbpath] at hapath
  exact absurd hapath (by decide)

end CodingAgent.L2.Store
