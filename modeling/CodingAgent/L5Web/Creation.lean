import CodingAgent.L2Store.Chains
import CodingAgent.L4App.Primary
import CodingAgent.L5Web.ApiClient
import CodingAgent.L5Web.Composer

/-!
# One task for one command (`web/src/components/TaskComposer.tsx:61-137`)

The composer makes a command with a request id of its own and executes it; a
failure that may be retried keeps the command, so that the next submission
executes the same one. The request may never reach the server, reach it late,
after the composer has given up on it, or reach it and lose its response; the
composer may be unmounted, and its repository may change, while it waits. All
the while others write to the store.

* `State`: the composers, their submissions and the store.
* `Inv`: what a composer, its submissions and the rows have to do with each
  other.
* `creation_once`: the result.
-/
namespace CodingAgent.L5.Web.Creation
open CodingAgent.L1.Domain CodingAgent.L2.Store Client Utf16

/-! ## Commands -/

/-- mirrors web/src/api/client.ts:74-77,188-199 -/
structure CreateTaskCommand where
  clientRequestId : ClientRequestId
  repositoryId : RepositoryId
  prompt : List UInt16
  deriving DecidableEq, Repr

/-- The request, as the server reads it. The escape of a lone surrogate, which
`JSON.stringify` writes, is no JSON to the server. -/
def CreateTaskCommand.request (command : CreateTaskCommand) : Option NewTask :=
  (decode command.prompt).map fun text =>
    ⟨command.clientRequestId, command.repositoryId, String.ofList text⟩

/-- What the server answers to a command; `none` is any error.
mirrors crates/coding-agent-app/src/server.rs:604-651 -/
def serve (env : Env) (repositoryId : RepositoryId) (fails : Bool) (command : CreateTaskCommand)
    (db : Db) : Option Task × Db :=
  match command.request with
  | none => (none, db)
  | some request =>
    match NewTask.tryNew request.clientRequestId request.repositoryId request.prompt with
    | .error _ => (none, db)
    | .ok input =>
      match (L4.App.StoreWriterOperation.task (.createTask input)).execute env repositoryId fails
        db with
      | (some (.task (.create outcome)), db') => (some outcome.task, db')
      | (_, db') => (none, db')

/-! ## The composer -/

/-- mirrors web/src/components/TaskComposer.tsx:12-18 -/
structure ComposerFailure where
  code : Option String
  message : String
  requestId : Option String
  retryable : Bool
  clientRequestId : Option ClientRequestId
  deriving DecidableEq, Repr

/-- `platformMessage` is that of an error of the platform.
mirrors web/src/components/TaskComposer.tsx:26-55 -/
def composerFailure (platformMessage : String) (clientRequestId : Option ClientRequestId) :
    ClientError → ComposerFailure
  | .api error | .sessionExpired error =>
    { code := some error.code
      message := error.message
      requestId := error.requestId
      retryable := error.retryable
      clientRequestId }
  | .platform =>
    { code := none
      message := platformMessage
      requestId := none
      retryable := false
      clientRequestId }

/-- `version` is that of `contextRef`.
mirrors web/src/components/TaskComposer.tsx:62-66 -/
structure TaskComposer extends Composer where
  retryCommand : Option CreateTaskCommand
  failure : Option ComposerFailure
  version : Nat

namespace TaskComposer

def mount (repositoryId : Option RepositoryId) : TaskComposer :=
  { repositoryId, prompt := [], submitting := false, retryCommand := none, failure := none,
    version := 0 }

/-- The effect of another `repositoryId`.
mirrors web/src/components/TaskComposer.tsx:75-85 -/
def setRepository (form : TaskComposer) (repositoryId : Option RepositoryId) : TaskComposer :=
  if form.repositoryId = repositoryId then form
  else { form with repositoryId, submitting := false, retryCommand := none, failure := none,
                   version := form.version + 1 }

/-- mirrors web/src/components/TaskComposer.tsx:96-106 -/
def updatePrompt (form : TaskComposer) (prompt : List UInt16) : TaskComposer :=
  { form with prompt, retryCommand := none, failure := none, version := form.version + 1 }

/-- The command a submission executes.
mirrors web/src/components/TaskComposer.tsx:114-116 -/
def command (form : TaskComposer) (clientRequestId : ClientRequestId) : Option CreateTaskCommand :=
  form.submit.map fun (repositoryId, prompt) =>
    form.retryCommand.getD ⟨clientRequestId, repositoryId, prompt⟩

def submitted (form : TaskComposer) : TaskComposer :=
  { form with submitting := true, failure := none }

/-- mirrors web/src/components/TaskComposer.tsx:118-122,133-135 -/
def succeeded (form : TaskComposer) : TaskComposer :=
  { form with retryCommand := none, prompt := [], submitting := false }

/-- mirrors web/src/components/TaskComposer.tsx:124-131,133-135 -/
def failed (form : TaskComposer) (command : CreateTaskCommand) (failure : ComposerFailure) :
    TaskComposer :=
  { form with failure := some failure,
              retryCommand := if failure.retryable then some command else none,
              submitting := false }

end TaskComposer

/-! ## The system -/

/-- An execution of a command. -/
structure Submission where
  form : Nat
  /-- `submissionVersion` -/
  version : Nat
  command : CreateTaskCommand
  /-- what the server has answered, if the request has come there -/
  served : Option (Option Task)
  settled : Bool

/-- All the composers there have been, of which one is mounted. -/
structure State where
  mounted : Nat
  forms : Nat → TaskComposer
  submissions : Nat → Option Submission
  db : Db
  /-- the commands each composer has made, and the calls of `onCreated` -/
  issued : List (Nat × CreateTaskCommand)
  created : List (CreateTaskCommand × Task)

inductive Label where
  | mount (repositoryId : Option RepositoryId)
  | setRepository (repositoryId : Option RepositoryId)
  | type (prompt : List UInt16)
  /-- with what `randomUUID` would return -/
  | submit (i : Nat) (clientRequestId : ClientRequestId)
  | serve (i : Nat) (env : Env) (repositoryId : RepositoryId) (fails : Bool)
  | settle (i : Nat) (reply : Except ClientError Task)
  /-- another writer of the store -/
  | outside (env : Env) (repositoryId : RepositoryId) (fails : Bool)
    (operation : L4.App.StoreWriterOperation)

/-- The request id of a task an operation may make. -/
def requestIdOf (env : Env) : L4.App.StoreWriterOperation → Option ClientRequestId
  | .task (.createTask input) => some input.clientRequestId
  | .task (.retryTask _) => some env.clientRequestId
  | _ => none

namespace State
variable (s : State)

def form : TaskComposer := s.forms s.mounted

def setForm (k : Nat) (form : TaskComposer) : State :=
  { s with forms := Function.update s.forms k form }

def setSubmission (i : Nat) (x : Submission) : State :=
  { s with submissions := Function.update s.submissions i (some x) }

/-- No command and no task has the id. -/
def Fresh (clientRequestId : ClientRequestId) : Prop :=
  (∀ issue ∈ s.issued, issue.2.clientRequestId ≠ clientRequestId) ∧
    ∀ row ∈ s.db.tasks, row.clientRequestId ≠ clientRequestId

instance (clientRequestId : ClientRequestId) : Decidable (s.Fresh clientRequestId) :=
  inferInstanceAs (Decidable (_ ∧ _))

/-- mirrors web/src/components/TaskComposer.tsx:108-117 -/
def submit (i : Nat) (clientRequestId : ClientRequestId) : Option State :=
  match s.form.command clientRequestId, s.submissions i with
  | some command, none =>
    let after := (s.setForm s.mounted s.form.submitted).setSubmission i
      ⟨s.mounted, s.form.version, command, none, false⟩
    if s.form.retryCommand.isSome then some after
    else if s.Fresh clientRequestId then some { after with issued := s.issued ++ [(s.mounted, command)] }
    else none
  | _, _ => none

def serve (i : Nat) (env : Env) (repositoryId : RepositoryId) (fails : Bool) : Option State :=
  match s.submissions i with
  | some x =>
    match x.served with
    | none =>
      let (answer, db) := Creation.serve env repositoryId fails x.command s.db
      some { s.setSubmission i { x with served := some answer } with db }
    | some _ => none
  | none => none

/-- A response is that of the server, or is lost. What the form has moved on
from is dropped.
mirrors web/src/components/TaskComposer.tsx:117-136 -/
def settle (platformMessage : String) (i : Nat) (reply : Except ClientError Task) : Option State :=
  match s.submissions i with
  | none => none
  | some x =>
    if x.settled then none
    else
      let after := s.setSubmission i { x with settled := true }
      let form := s.forms x.form
      match reply with
      | .ok task =>
        if x.served = some (some task) then
          if form.version = x.version then
            some { after.setForm x.form form.succeeded with
              created := s.created ++ [(x.command, task)] }
          else some after
        else none
      | .error error =>
        if form.version = x.version then
          some (after.setForm x.form (form.failed x.command
            (composerFailure platformMessage (some x.command.clientRequestId) error)))
        else some after

end State

section
variable (platformMessage : String)

/-- The ids that `randomUUID` and the others' requests have are different. -/
def next (s : State) : Label → Option State
  | .mount repositoryId =>
    some { s.setForm (s.mounted + 1) (.mount repositoryId) with mounted := s.mounted + 1 }
  | .setRepository repositoryId => some (s.setForm s.mounted (s.form.setRepository repositoryId))
  | .type prompt =>
    if s.form.repositoryId.isSome && !s.form.submitting then
      some (s.setForm s.mounted (s.form.updatePrompt prompt))
    else none
  | .submit i clientRequestId => s.submit i clientRequestId
  | .serve i env repositoryId fails => s.serve i env repositoryId fails
  | .settle i reply => s.settle platformMessage i reply
  | .outside env repositoryId fails operation =>
    if (requestIdOf env operation).all fun id => s.issued.all (·.2.clientRequestId ≠ id) then
      some { s with db := (operation.execute env repositoryId fails s.db).2 }
    else none

def State.start (repositoryId : Option RepositoryId) (db : Db) : State :=
  { mounted := 0, forms := fun _ => .mount repositoryId, submissions := fun _ => none, db,
    issued := [], created := [] }

def creation (db : Db) : LTS State Label :=
  .ofFn (fun s => ∃ repositoryId, s = .start repositoryId db) (next platformMessage)

end

/-! ## The rows a call makes -/

/-- The row is what the command asked for. -/
def Carries (command : CreateTaskCommand) (row : TaskRow) : Prop :=
  row.repositoryId = command.repositoryId ∧
    ∃ text, decode command.prompt = some text ∧ row.prompt = trim (String.ofList text)

section
variable {db db' : Db} {log : List TaskEvent} {env : Env} {repositoryId : RepositoryId} {fails : Bool}

theorem execute_call (operation : L4.App.StoreWriterOperation) (env : Env)
    (repositoryId : RepositoryId) (fails : Bool) (db : Db) :
    ∃ call : StoreCall, (operation.execute env repositoryId fails db).2 = call.run db := by
  cases operation with
  | registerRepository input =>
    refine ⟨.registerRepository env repositoryId input fails, ?_⟩
    simp only [L4.App.StoreWriterOperation.execute, StoreCall.run, StoreCall.register]
    cases fails with
    | true => rfl
    | false =>
      cases hok : registerRepository env repositoryId input db with
      | error error => simp
      | ok r => simp
  | task operation =>
    refine ⟨.task ⟨env, operation, fails⟩, ?_⟩
    simp only [L4.App.StoreWriterOperation.execute, StoreCall.run]
    split <;> simp_all

/-- A creation adds the row of its task, if any. -/
theorem createTask_rows {input : NewTask} {out : CreateTaskOutcome} (hr : Reflects db log)
    (hc : Chained db) (hok : createTask env input db = .ok (out, db')) :
    ∀ row ∈ db'.tasks, (∃ old ∈ db.tasks, KeepsRow old row) ∨ row = TaskRow.ofTask out.task := by
  intro row hrow
  have hrun : (Call.run ⟨env, .createTask input, false⟩ db).2 = db' := by
    have htx : (Operation.createTask input).tx env db = .ok (.create out, db') :=
      tx_map_ok.2 ⟨out, hok, rfl⟩
    simp [Call.run, htx]
  obtain ⟨hmem, hid, -⟩ := create_row hr hok
  rcases Call.run_rows hr ⟨env, .createTask input, false⟩ with hold | ⟨new, hnew, hrows⟩
  · rw [hrun] at hold
    exact .inl (hold row hrow)
  · rw [hrun] at hrows
    rcases (hrows row).1 hrow with hold | rfl
    · exact .inl (hr.same row hold)
    · rcases (hrows _).1 hmem with hexisting | hsame
      · -- the request had a row, so nothing was inserted
        obtain ⟨rfl, -⟩ := create_again hc hexisting hid hok
        exact absurd rfl (hnew.insertable.id row hrow)
      · exact .inr hsame.symm

/-- A retry adds a row with a request id of the server's. -/
theorem retryTask_rows {source : TaskId} {out : RetryTaskOutcome} (hr : Reflects db log)
    (hok : retryTask env source db = .ok (out, db')) :
    ∀ row ∈ db'.tasks, (∃ old ∈ db.tasks, KeepsRow old row) ∨
      row.clientRequestId = env.clientRequestId := by
  obtain ⟨parent, -, rfl, -, ⟨t, rfl, rfl, -⟩ | ⟨t, eventId, now, db₁, rfl, hins, happ⟩⟩ :=
    retryTask_ok hok
  · exact fun row hrow => .inl (hr.same row hrow)
  · obtain ⟨hnone, htask, hr'⟩ := insertQueued_reflects hr rfl hins happ
    have hself := EventModel.replay_snoc_self (m := history) log
      (TaskEvent.new eventId env.taskId (.taskQueued t) now)
    intro row hrow
    rcases (hr.inserted hr' hnone hself row).1 hrow with hold | rfl
    · exact .inl (hr.same row hold)
    · exact .inr (congrArg TaskRow.clientRequestId htask)

theorem transition_rows {id : TaskId} {expected : TaskStatus} {transition : TaskTransition}
    {out : TransitionOutcome} (hr : Reflects db log)
    (hok : transitionWithEvent env id expected transition db = .ok (out, db')) :
    ∀ row ∈ db'.tasks, ∃ old ∈ db.tasks, KeepsRow old row := by
  rcases transitionWithEvent_reflects hr hok with ⟨t, -, hdb, -⟩ |
    ⟨t, eventId, now, payload, -, ht, -, -, hr'⟩
  · rw [show db' = db from hdb]
    exact hr.same
  · refine hr.old hr' fun e he hnone => ?_
    rw [List.mem_singleton.1 he] at hnone
    cases ht.symm.trans hnone

theorem append_rows {id : TaskId} {payload : TaskEventPayload} {out : AppendEventOutcome}
    (hr : Reflects db log) (hok : appendRunningEvent env id payload db = .ok (out, db')) :
    ∀ row ∈ db'.tasks, ∃ old ∈ db.tasks, KeepsRow old row := by
  obtain ⟨-, ⟨t, -, hdb, -⟩ | ⟨t, eventId, now, -, ht, -, hr'⟩⟩ := appendRunningEvent_reflects hr hok
  · rw [show db' = db from hdb]
    exact hr.same
  · refine hr.old hr' fun e he hnone => ?_
    rw [List.mem_singleton.1 he] at hnone
    cases ht.symm.trans hnone

theorem recover_rows {now : UtcTimestamp} {failure : TaskFailure} {out : RecoveryOutcome}
    (hr : Reflects db log) (hok : recoverIncomplete env now failure db = .ok (out, db')) :
    ∀ row ∈ db'.tasks, ∃ old ∈ db.tasks, KeepsRow old row := by
  obtain ⟨new, hr', -, hinter, -⟩ := recoverIncomplete_reflects hr hok
  refine hr.old hr' fun e he hnone => ?_
  obtain ⟨t, ht, -⟩ := hinter e he
  cases ht.symm.trans hnone

/-- What a writer's call makes has the request id it was given. -/
theorem execute_rows {operation : L4.App.StoreWriterOperation} (hr : Reflects db log)
    (hc : Chained db) :
    ∀ row ∈ (operation.execute env repositoryId fails db).2.tasks,
      (∃ old ∈ db.tasks, KeepsRow old row) ∨
        requestIdOf env operation = some row.clientRequestId := by
  intro row hrow
  cases operation with
  | registerRepository input =>
    simp only [L4.App.StoreWriterOperation.execute] at hrow
    split at hrow
    · exact .inl (hr.same row hrow)
    · split at hrow
      · rename_i hok
        obtain ⟨repositories, rfl⟩ := registerRepository_frame hok
        exact .inl (hr.same row hrow)
      · exact .inl (hr.same row hrow)
  | task operation =>
    simp only [L4.App.StoreWriterOperation.execute, Call.run] at hrow
    cases fails with
    | true => exact .inl (hr.same row hrow)
    | false =>
      cases hop : operation.tx env db with
      | error error =>
        simp only [hop] at hrow
        exact .inl (hr.same row hrow)
      | ok r =>
        obtain ⟨reply, db'⟩ := r
        simp only [hop] at hrow
        change row ∈ db'.tasks at hrow
        cases operation with
        | createTask input =>
          obtain ⟨out, hout, -⟩ := tx_map_ok.1 hop
          refine (createTask_rows hr hc hout row hrow).imp_right ?_
          rintro rfl
          obtain ⟨-, hid, -⟩ := create_row hr hout
          exact congrArg some hid.symm
        | retryTask source =>
          obtain ⟨out, hout, -⟩ := tx_map_ok.1 hop
          exact (retryTask_rows hr hout row hrow).imp_right fun hid => congrArg some hid.symm
        | transitionWithEvent id expected transition =>
          obtain ⟨out, hout, -⟩ := tx_map_ok.1 hop
          exact .inl (transition_rows hr hout row hrow)
        | appendRunningEvent id payload =>
          obtain ⟨out, hout, -⟩ := tx_map_ok.1 hop
          exact .inl (append_rows hr hout row hrow)
        | recoverIncomplete now failure =>
          obtain ⟨out, hout, -⟩ := tx_map_ok.1 hop
          exact .inl (recover_rows hr hout row hrow)

theorem trim_trim (text : String) : trim (trim text) = trim text := by
  have hkept := (trimWhile_eq_self_iff isWhiteSpace _).2 (trimWhile_kept isWhiteSpace text.toList)
  have hlist : (trim text).toList = trimWhile isWhiteSpace text.toList := String.toList_ofList
  show String.ofList (trimWhile isWhiteSpace (trim text).toList) = trim text
  rw [hlist, hkept]
  rfl

/-- **The spec of the server's part.** -/
theorem serve_spec {command : CreateTaskCommand} {answer : Option Task}
    (hs : serve env repositoryId fails command db = (answer, db')) :
    (answer = none ∧ db' = db) ∨ ∃ text out, decode command.prompt = some text ∧
      createTask env ⟨command.clientRequestId, command.repositoryId, trim (String.ofList text)⟩ db =
        .ok (out, db') ∧ answer = some out.task := by
  unfold serve CreateTaskCommand.request at hs
  cases htext : decode command.prompt with
  | none =>
    simp only [htext, Option.map_none, Prod.mk.injEq] at hs
    exact .inl ⟨hs.1.symm, hs.2.symm⟩
  | some text =>
    simp only [htext, Option.map_some] at hs
    split at hs
    · cases hs
      exact .inl ⟨rfl, rfl⟩
    · rename_i input hinput
      cases NewTask.tryNew_ok hinput
      simp only [L4.App.StoreWriterOperation.execute, Call.run] at hs
      cases fails with
      | true =>
        cases hs
        exact .inl ⟨rfl, rfl⟩
      | false =>
        cases hop : (Operation.createTask ⟨command.clientRequestId, command.repositoryId,
            trim (String.ofList text)⟩).tx env db with
        | error error =>
          simp only [hop] at hs
          cases hs
          exact .inl ⟨rfl, rfl⟩
        | ok r =>
          obtain ⟨reply, after⟩ := r
          obtain ⟨out, hout, rfl⟩ := tx_map_ok.1 hop
          simp only [hop] at hs
          cases hs
          exact .inr ⟨text, out, rfl, hout, rfl⟩

theorem serve_call {command : CreateTaskCommand} {answer : Option Task}
    (hs : serve env repositoryId fails command db = (answer, db')) :
    db' = db ∨ ∃ call : StoreCall, db' = call.run db := by
  rcases serve_spec hs with ⟨-, hdb⟩ | ⟨text, out, -, hok, -⟩
  · exact .inl hdb
  · refine .inr ⟨.task ⟨env, .createTask ⟨command.clientRequestId, command.repositoryId,
      trim (String.ofList text)⟩, false⟩, ?_⟩
    have htx : (Operation.createTask ⟨command.clientRequestId, command.repositoryId,
        trim (String.ofList text)⟩).tx env db = .ok (.create out, db') :=
      tx_map_ok.2 ⟨out, hok, rfl⟩
    simp [StoreCall.run, Call.run, htx]

/-- The answer names a row of the command. -/
theorem serve_answer {command : CreateTaskCommand} {task : Task} (hr : Reflects db log)
    (hs : serve env repositoryId fails command db = (some task, db')) :
    ∃ row ∈ db'.tasks, row.id = task.id ∧ row.clientRequestId = command.clientRequestId := by
  rcases serve_spec hs with ⟨hanswer, -⟩ | ⟨text, out, -, hok, hanswer⟩
  · cases hanswer
  · cases hanswer
    obtain ⟨hmem, hid, -⟩ := create_row hr hok
    exact ⟨_, hmem, rfl, hid⟩

theorem serve_rows {command : CreateTaskCommand} {answer : Option Task} (hr : Reflects db log)
    (hc : Chained db) (hs : serve env repositoryId fails command db = (answer, db')) :
    ∀ row ∈ db'.tasks, (∃ old ∈ db.tasks, KeepsRow old row) ∨
      row.clientRequestId = command.clientRequestId ∧ Carries command row := by
  rcases serve_spec hs with ⟨-, rfl⟩ | ⟨text, out, htext, hok, -⟩
  · exact fun row hrow => .inl (hr.same row hrow)
  · intro row hrow
    refine (createTask_rows hr hc hok row hrow).imp_right ?_
    rintro rfl
    obtain ⟨-, hid, hrepository, hprompt, -⟩ := create_row hr hok
    exact ⟨hid, hrepository, text, htext, hprompt.trans (trim_trim _)⟩

end

/-! ## The invariant -/

/-- The form still says what the command asks for. -/
def Matches (command : CreateTaskCommand) (form : TaskComposer) : Prop :=
  form.repositoryId = some command.repositoryId ∧ form.trimmedPrompt = command.prompt

/-- The task is in the store, under the command's request id. -/
def HasRow (db : Db) (command : CreateTaskCommand) (task : Task) : Prop :=
  ∃ row ∈ db.tasks, row.id = task.id ∧ row.clientRequestId = command.clientRequestId

/-- A form waits for the submission. -/
structure Pending (s : State) (k i : Nat) (x : Submission) : Prop where
  submission : s.submissions i = some x
  form : x.form = k
  version : x.version = (s.forms k).version
  unsettled : x.settled = false

structure FormOk (s : State) (k : Nat) : Prop where
  versions : ∀ i x, s.submissions i = some x → x.form = k → x.version ≤ (s.forms k).version
  pending : ∀ i x, Pending s k i x → (s.forms k).submitting = true ∧ Matches x.command (s.forms k) ∧
    x.command ∉ s.created.map Prod.fst
  single : ∀ i j x y, Pending s k i x → Pending s k j y → i = j
  retry : ∀ c, (s.forms k).retryCommand = some c → (k, c) ∈ s.issued ∧ Matches c (s.forms k) ∧
    c ∉ s.created.map Prod.fst

structure StoreOk (s : State) : Prop where
  store : store.Reachable s.db
  rows : ∀ row ∈ s.db.tasks, ∀ issue ∈ s.issued,
    row.clientRequestId = issue.2.clientRequestId → Carries issue.2 row
  served : ∀ i x task, s.submissions i = some x → x.served = some (some task) →
    HasRow s.db x.command task
  created : ∀ c task, (c, task) ∈ s.created → HasRow s.db c task

structure Inv (s : State) : Prop where
  store : StoreOk s
  forms : ∀ k, FormOk s k
  mounted : ∀ i x, s.submissions i = some x → x.form ≤ s.mounted
  ids : (s.issued.map fun issue => issue.2.clientRequestId).Nodup
  issued : ∀ i x, s.submissions i = some x → (x.form, x.command) ∈ s.issued
  created : ∀ c ∈ s.created.map Prod.fst, ∃ k, (k, c) ∈ s.issued
  once : (s.created.map Prod.fst).Nodup

/-- No submission begins, and those there are go on. -/
def GoesOn (s s' : State) : Prop :=
  ∀ j y, s'.submissions j = some y → ∃ old, s.submissions j = some old ∧ old.form = y.form ∧
    old.version = y.version ∧ old.command = y.command ∧ (y.settled = false → old.settled = false)

section
variable {s : State} {db db' : Db} {k i : Nat} {x : Submission} {form : TaskComposer}

/-! ## The store -/

theorem HasRow.keep {c : CreateTaskCommand} {task : Task} (h : HasRow db c task)
    (hkept : ∀ row ∈ db.tasks, ∃ row' ∈ db'.tasks, KeepsRow row row') : HasRow db' c task := by
  obtain ⟨row, hrow, hid, hrequest⟩ := h
  obtain ⟨row', hrow', hk⟩ := hkept row hrow
  obtain ⟨hkid, hkrequest, -⟩ := hk.eqs
  exact ⟨row', hrow', hkid.trans hid, hkrequest.trans hrequest⟩

theorem Carries.keep {c : CreateTaskCommand} {row row' : TaskRow} (h : Carries c row)
    (hk : KeepsRow row row') : Carries c row' := by
  obtain ⟨hrepository, text, htext, hprompt⟩ := h
  obtain ⟨-, -, hkrepository, hkprompt, -⟩ := hk.eqs
  exact ⟨hkrepository.trans hrepository, text, htext, hkprompt.trans hprompt⟩

/-- A call leaves every row there. -/
theorem kept_call (hdb : store.Reachable db)
    (hcall : db' = db ∨ ∃ call : StoreCall, db' = call.run db) :
    store.Reachable db' ∧ ∀ row ∈ db.tasks, ∃ row' ∈ db'.tasks, KeepsRow row row' := by
  obtain ⟨log, hr⟩ := reachable_reflects hdb
  rcases hcall with rfl | ⟨call, rfl⟩
  · have hsame : Reflects db' (log ++ []) := by rwa [List.append_nil]
    exact ⟨hdb, hr.kept hsame⟩
  · obtain ⟨new, hr'⟩ := call.run_reflects hr
    exact ⟨hdb.step (store_step.2 rfl), hr.kept hr'⟩

/-- The store changes: each row is an old one, or that of a command, or nobody's. -/
theorem StoreOk.write (h : StoreOk s) (hcall : db' = s.db ∨ ∃ call : StoreCall, db' = call.run s.db)
    (hrows : ∀ row ∈ db'.tasks, (∃ old ∈ s.db.tasks, KeepsRow old row) ∨
      ∀ issue ∈ s.issued, row.clientRequestId = issue.2.clientRequestId → Carries issue.2 row) :
    StoreOk { s with db := db' } := by
  obtain ⟨hreachable, hkept⟩ := kept_call h.store hcall
  refine ⟨hreachable, fun row hrow issue hissue hid => ?_,
    fun i x task hx hserved => (h.served i x task hx hserved).keep hkept,
    fun c task hc => (h.created c task hc).keep hkept⟩
  rcases hrows row hrow with ⟨old, hold, hk⟩ | hnew
  · obtain ⟨-, hkrequest, -⟩ := hk.eqs
    exact (h.rows old hold issue hissue (hkrequest.symm.trans hid)).keep hk
  · exact hnew issue hissue hid

theorem issued_inj (h : Inv s) {a b : Nat × CreateTaskCommand} (ha : a ∈ s.issued) (hb : b ∈ s.issued)
    (hid : a.2.clientRequestId = b.2.clientRequestId) : a = b :=
  List.inj_on_of_nodup_map h.ids ha hb hid

/-! ## The form -/

/-- The form moves on: it waits for nothing anymore. -/
theorem FormOk.advance (h : FormOk s k) (hversion : form.version = (s.forms k).version + 1)
    (hretry : form.retryCommand = none) : FormOk (s.setForm k form) k := by
  have hform : (s.setForm k form).forms k = form := Function.update_self ..
  have hnone : ∀ i x, ¬Pending (s.setForm k form) k i x := by
    intro i x hp
    have hle := h.versions i x hp.submission hp.form
    have heq := hp.version
    rw [hform] at heq
    omega
  refine ⟨fun i x hx hk => ?_, fun i x hp => absurd hp (hnone i x),
    fun i j x y hp _ => absurd hp (hnone i x), fun c hc => ?_⟩
  · have := h.versions i x hx hk
    rw [hform]
    omega
  · rw [hform, hretry] at hc
    cases hc

/-- What a step does to a form that it leaves as it is: to its submissions it may
do anything but begin one, and it may let others' commands succeed. -/
theorem FormOk.relax (h : FormOk s k) {s' : State}
    (hown : ∀ j y, s.submissions j = some y → (y.form, y.command) ∈ s.issued)
    (hform : s'.forms k = s.forms k) (hissued : ∀ issue ∈ s.issued, issue ∈ s'.issued)
    (hcreated : ∀ c, (k, c) ∈ s.issued → c ∈ s'.created.map Prod.fst → c ∈ s.created.map Prod.fst)
    (hsubmissions : ∀ j y, s'.submissions j = some y → y.form = k → ∃ old,
      s.submissions j = some old ∧ old.form = k ∧ old.version = y.version ∧
        old.command = y.command ∧ (y.settled = false → old.settled = false)) : FormOk s' k := by
  have hpending : ∀ j y, Pending s' k j y → ∃ old, Pending s k j old ∧ old.command = y.command := by
    intro j y hp
    obtain ⟨old, hold, hof, hversion, hcommand, hsettled⟩ :=
      hsubmissions j y hp.submission hp.form
    exact ⟨old, ⟨hold, hof, by rw [hversion, hp.version, hform], hsettled hp.unsettled⟩, hcommand⟩
  refine ⟨fun j y hy hk => ?_, fun j y hp => ?_, fun j j' y y' hy hy' => ?_, fun c hc => ?_⟩
  · obtain ⟨old, hold, hof, hversion, -⟩ := hsubmissions j y hy hk
    rw [hform, ← hversion]
    exact h.versions j old hold hof
  · obtain ⟨old, hold, hcommand⟩ := hpending j y hp
    obtain ⟨hsubmitting, hmatches, hnew⟩ := h.pending j old hold
    rw [hform, ← hcommand]
    refine ⟨hsubmitting, hmatches, fun hmem => hnew (hcreated _ ?_ hmem)⟩
    have := hown j old hold.submission
    rwa [hold.form] at this
  · obtain ⟨old, hold, -⟩ := hpending j y hy
    obtain ⟨old', hold', -⟩ := hpending j' y' hy'
    exact h.single j j' old old' hold hold'
  · rw [hform] at hc ⊢
    obtain ⟨hissue, hmatches, hnew⟩ := h.retry c hc
    exact ⟨hissued _ hissue, hmatches, fun hmem => hnew (hcreated c hissue hmem)⟩

theorem setForm_self (s : State) (k : Nat) (form : TaskComposer) :
    (s.setForm k form).forms k = form := Function.update_self ..

theorem setForm_other {k k' : Nat} (h : k' ≠ k) (s : State) (form : TaskComposer) :
    (s.setForm k form).forms k' = s.forms k' := Function.update_of_ne h ..

theorem setSubmission_self (s : State) (i : Nat) (x : Submission) :
    (s.setSubmission i x).submissions i = some x := Function.update_self ..

theorem setSubmission_other {i j : Nat} (h : j ≠ i) (s : State) (x : Submission) :
    (s.setSubmission i x).submissions j = s.submissions j := Function.update_of_ne h ..

theorem submission_cases {s : State} {i j : Nat} {x y : Submission}
    (h : (s.setSubmission i x).submissions j = some y) :
    j = i ∧ y = x ∨ j ≠ i ∧ s.submissions j = some y := by
  by_cases hj : j = i
  · rw [hj, setSubmission_self] at h
    exact .inl ⟨hj, (Option.some.inj h).symm⟩
  · rw [setSubmission_other hj] at h
    exact .inr ⟨hj, h⟩

/-- A submission goes on: the rest is as it was. -/
theorem goes_on {z : Submission} (hx : s.submissions i = some x) (hf : z.form = x.form)
    (hv : z.version = x.version) (hc : z.command = x.command)
    (hs : z.settled = false → x.settled = false) : GoesOn s (s.setSubmission i z) := by
  intro j y hy
  rcases submission_cases hy with ⟨rfl, rfl⟩ | ⟨-, hy⟩
  · exact ⟨x, hx, hf.symm, hv.symm, hc.symm, hs⟩
  · exact ⟨y, hy, rfl, rfl, rfl, id⟩

theorem GoesOn.mounted {s' : State} (hgoes : GoesOn s s') (h : Inv s) :
    ∀ j y, s'.submissions j = some y → y.form ≤ s.mounted := by
  intro j y hy
  obtain ⟨old, hold, hof, -⟩ := hgoes j y hy
  rw [← hof]
  exact h.mounted j old hold

theorem GoesOn.issued {s' : State} (hgoes : GoesOn s s') (h : Inv s) :
    ∀ j y, s'.submissions j = some y → (y.form, y.command) ∈ s.issued := by
  intro j y hy
  obtain ⟨old, hold, hof, -, hcommand, -⟩ := hgoes j y hy
  rw [← hof, ← hcommand]
  exact h.issued j old hold

theorem GoesOn.own {s' : State} (hgoes : GoesOn s s') (k : Nat) :
    ∀ j y, s'.submissions j = some y → y.form = k → ∃ old, s.submissions j = some old ∧
      old.form = k ∧ old.version = y.version ∧ old.command = y.command ∧
        (y.settled = false → old.settled = false) := by
  intro j y hy hf
  obtain ⟨old, hold, hof, hrest⟩ := hgoes j y hy
  exact ⟨old, hold, hof.trans hf, hrest⟩

/-! ## The steps -/

/-- A form changes, and no submission does. -/
theorem Inv.setForm (h : Inv s) (hform : FormOk (s.setForm k form) k) : Inv (s.setForm k form) where
  store := ⟨h.store.store, h.store.rows, h.store.served, h.store.created⟩
  forms k' := by
    by_cases hk : k' = k
    · rwa [hk]
    · refine (h.forms k').relax h.issued (setForm_other hk s form) (fun _ hissue => hissue)
        (fun c _ hmem => hmem) fun j y hy hf => ⟨y, hy, hf, rfl, rfl, id⟩
  mounted := h.mounted
  ids := h.ids
  issued := h.issued
  created := h.created
  once := h.once

theorem Inv.mount (h : Inv s) (repositoryId : Option RepositoryId) :
    Inv { s.setForm (s.mounted + 1) (.mount repositoryId) with mounted := s.mounted + 1 } := by
  have hnew : FormOk (s.setForm (s.mounted + 1) (.mount repositoryId)) (s.mounted + 1) := by
    have hnone : ∀ i x, s.submissions i = some x → x.form ≠ s.mounted + 1 := by
      intro i x hx heq
      have := h.mounted i x hx
      omega
    refine ⟨fun i x hx hk => absurd hk (hnone i x hx),
      fun i x hp => absurd hp.form (hnone i x hp.submission),
      fun i j x y hp _ => absurd hp.form (hnone i x hp.submission), fun c hc => ?_⟩
    rw [setForm_self] at hc
    cases hc
  have hi := h.setForm hnew
  refine ⟨⟨hi.store.store, hi.store.rows, hi.store.served, hi.store.created⟩, fun k => ?_,
    fun i x hx => ?_, hi.ids, hi.issued, hi.created, hi.once⟩
  · obtain ⟨hversions, hpending, hsingle, hretry⟩ := hi.forms k
    exact ⟨hversions, fun j y hp => hpending j y ⟨hp.1, hp.2, hp.3, hp.4⟩,
      fun j j' y y' hp hp' => hsingle j j' y y' ⟨hp.1, hp.2, hp.3, hp.4⟩ ⟨hp'.1, hp'.2, hp'.3, hp'.4⟩,
      hretry⟩
  · have := hi.mounted i x hx
    show x.form ≤ s.mounted + 1
    exact Nat.le_succ_of_le this

theorem Inv.setRepository (h : Inv s) (repositoryId : Option RepositoryId) :
    Inv (s.setForm s.mounted (s.form.setRepository repositoryId)) := by
  unfold TaskComposer.setRepository
  split
  · have hsame : s.setForm s.mounted s.form = s := by
      simp [State.setForm, State.form]
    rwa [hsame]
  · exact h.setForm ((h.forms s.mounted).advance rfl rfl)

theorem Inv.type (h : Inv s) (prompt : List UInt16) :
    Inv (s.setForm s.mounted (s.form.updatePrompt prompt)) :=
  h.setForm ((h.forms s.mounted).advance rfl rfl)

/-- What a form submits: the command it has kept, or one for what it says. -/
theorem command_spec {form : TaskComposer} {clientRequestId : ClientRequestId}
    {command : CreateTaskCommand} (hc : form.command clientRequestId = some command) :
    form.submitting = false ∧ (form.retryCommand = some command ∨
      form.retryCommand = none ∧ command.clientRequestId = clientRequestId ∧ Matches command form) := by
  obtain ⟨⟨repositoryId, prompt⟩, hsubmit, rfl⟩ := Option.map_eq_some_iff.1 hc
  unfold Composer.submit at hsubmit
  split at hsubmit
  · cases hsubmit
  · rename_i hrepository
    split at hsubmit
    · cases hsubmit
    · rename_i hok
      cases hsubmit
      simp only [Bool.or_eq_true, not_or, Bool.not_eq_true] at hok
      refine ⟨hok.2, ?_⟩
      cases hretry : form.retryCommand with
      | some kept => exact .inl rfl
      | none => exact .inr ⟨rfl, rfl, hrepository, rfl⟩

theorem submit_spec {clientRequestId : ClientRequestId} {s' : State}
    (hs : s.submit i clientRequestId = some s') :
    ∃ command issued, s.form.command clientRequestId = some command ∧ s.submissions i = none ∧
      s' = { (s.setForm s.mounted s.form.submitted).setSubmission i
        ⟨s.mounted, s.form.version, command, none, false⟩ with issued } ∧
      (s.form.retryCommand = some command ∧ issued = s.issued ∨
        s.form.retryCommand = none ∧ issued = s.issued ++ [(s.mounted, command)] ∧
          s.Fresh command.clientRequestId) := by
  unfold State.submit at hs
  split at hs
  · rename_i command hcommand hnone
    rcases (command_spec hcommand).2 with hkept | ⟨hnew, hid, -⟩
    · simp only [hkept, Option.isSome_some, if_true, Option.some.injEq] at hs
      exact ⟨command, s.issued, hcommand, hnone, hs.symm, .inl ⟨hkept, rfl⟩⟩
    · simp only [hnew, Option.isSome_none, Bool.false_eq_true, if_false] at hs
      split at hs
      · rename_i hfresh
        cases hs
        exact ⟨command, _, hcommand, hnone, rfl, .inr ⟨hnew, rfl, by rwa [hid]⟩⟩
      · cases hs
  · cases hs

/-- A form that waits for nothing submits, and waits for that. -/
theorem FormOk.submitted {s' : State} (h : FormOk s k) (hidle : (s.forms k).submitting = false)
    (hsubmissions : s'.submissions = (s.setSubmission i x).submissions)
    (hform : s'.forms k = (s.forms k).submitted) (hversion : x.version = (s.forms k).version)
    (hmatches : Matches x.command (s.forms k)) (hnew : x.command ∉ s.created.map Prod.fst)
    (hcreated : s'.created = s.created) (hissued : ∀ issue ∈ s.issued, issue ∈ s'.issued) :
    FormOk s' k := by
  -- nothing is awaited before, so the new submission is the only one
  have honly : ∀ j y, Pending s' k j y → j = i ∧ y = x := by
    intro j y hp
    have hy := hp.submission
    rw [hsubmissions] at hy
    rcases submission_cases hy with hlast | ⟨-, hy⟩
    · exact hlast
    · have hyversion := hp.version
      rw [hform] at hyversion
      have hsubmitting := (h.pending j y ⟨hy, hp.form, hyversion, hp.unsettled⟩).1
      rw [hidle] at hsubmitting
      cases hsubmitting
  refine ⟨fun j y hy hf => ?_, fun j y hp => ?_, fun j j' y y' hp hp' => ?_, fun c hc => ?_⟩
  · rw [hsubmissions] at hy
    rw [hform]
    rcases submission_cases hy with ⟨-, rfl⟩ | ⟨-, hy⟩
    · exact Nat.le_of_eq hversion
    · exact h.versions j y hy hf
  · obtain ⟨-, rfl⟩ := honly j y hp
    rw [hform, hcreated]
    exact ⟨rfl, hmatches, hnew⟩
  · exact (honly j y hp).1.trans (honly j' y' hp').1.symm
  · rw [hform] at hc ⊢
    rw [hcreated]
    obtain ⟨hissue, hsame, hfresh⟩ := h.retry c hc
    exact ⟨hissued _ hissue, hsame, hfresh⟩

theorem Inv.submit (h : Inv s) {clientRequestId : ClientRequestId} {s' : State}
    (hs : s.submit i clientRequestId = some s') : Inv s' := by
  obtain ⟨command, issued, hcommand, hnone, rfl, hissued⟩ := submit_spec hs
  obtain ⟨hidle, hwhat⟩ := command_spec hcommand
  have hform := h.forms s.mounted
  have hcreated : command ∉ s.created.map Prod.fst := by
    rcases hissued with ⟨hkept, -⟩ | ⟨-, -, hfresh⟩
    · exact (hform.retry command hkept).2.2
    · intro hmem
      obtain ⟨k, hissue⟩ := h.created command hmem
      exact hfresh.1 _ hissue rfl
  have hmatches : Matches command s.form := by
    rcases hwhat with hkept | ⟨-, -, hmatches⟩
    · exact (hform.retry command hkept).2.1
    · exact hmatches
  have hmem : (s.mounted, command) ∈ issued := by
    rcases hissued with ⟨hkept, rfl⟩ | ⟨-, rfl, -⟩
    · exact (hform.retry command hkept).1
    · exact List.mem_append_right _ (List.mem_singleton.2 rfl)
  have hgrown : ∀ issue ∈ s.issued, issue ∈ issued := by
    rcases hissued with ⟨-, rfl⟩ | ⟨-, rfl, -⟩
    · exact fun _ hissue => hissue
    · exact fun _ hissue => List.mem_append_left _ hissue
  refine ⟨⟨h.store.store, fun row hrow issue hissue hid => ?_, fun j y task hy hserved => ?_,
    h.store.created⟩, fun k => ?_, fun j y hy => ?_, ?_, fun j y hy => ?_, fun c hc => ?_, h.once⟩
  · rcases hissued with ⟨-, rfl⟩ | ⟨-, rfl, hfresh⟩
    · exact h.store.rows row hrow issue hissue hid
    · rcases List.mem_append.1 hissue with hissue | hissue
      · exact h.store.rows row hrow issue hissue hid
      · rw [List.mem_singleton.1 hissue] at hid
        exact absurd hid (hfresh.2 row hrow)
  · rcases submission_cases hy with ⟨-, rfl⟩ | ⟨-, hy⟩
    · cases hserved
    · exact h.store.served j y task hy hserved
  · by_cases hk : k = s.mounted
    · rw [hk]
      exact hform.submitted hidle rfl (setForm_self ..) rfl hmatches hcreated rfl hgrown
    · refine (h.forms k).relax h.issued (setForm_other hk ..) hgrown (fun c _ hmem => hmem)
        fun j y hy hf => ?_
      rcases submission_cases hy with ⟨-, rfl⟩ | ⟨-, hy⟩
      · exact absurd hf.symm hk
      · exact ⟨y, hy, hf, rfl, rfl, id⟩
  · rcases submission_cases hy with ⟨-, rfl⟩ | ⟨-, hy⟩
    · exact Nat.le_refl _
    · exact h.mounted j y hy
  · rcases hissued with ⟨-, rfl⟩ | ⟨-, rfl, hfresh⟩
    · exact h.ids
    · rw [List.map_append]
      refine List.nodup_append.2 ⟨h.ids, List.nodup_singleton _, ?_⟩
      rintro id hid id' hnew rfl
      obtain ⟨issue, hissue, rfl⟩ := List.mem_map.1 hid
      exact hfresh.1 issue hissue (List.mem_singleton.1 hnew)
  · rcases submission_cases hy with ⟨-, rfl⟩ | ⟨-, hy⟩
    · exact hmem
    · exact hgrown _ (h.issued j y hy)
  · obtain ⟨k, hissue⟩ := h.created c hc
    exact ⟨k, hgrown _ hissue⟩

theorem Inv.serve (h : Inv s) {env : Env} {repositoryId : RepositoryId} {fails : Bool} {s' : State}
    (hs : s.serve i env repositoryId fails = some s') : Inv s' := by
  unfold State.serve at hs
  split at hs
  case h_2 => cases hs
  rename_i x hx
  split at hs
  case h_2 => cases hs
  cases hserve : Creation.serve env repositoryId fails x.command s.db with
  | mk answer db =>
    rw [hserve] at hs
    cases hs
    obtain ⟨log, hr⟩ := reachable_reflects h.store.store
    have hrows := serve_rows hr (reachable_chained h.store.store) hserve
    have hgoes := goes_on (z := { x with served := some answer }) hx rfl rfl rfl id
    have hstore : StoreOk { s with db } := by
      refine h.store.write (serve_call hserve) fun row hrow => ?_
      refine (hrows row hrow).imp_right fun hnew issue hissue hid => ?_
      -- the ids are different, so the issue is the command's
      have hsame := issued_inj h hissue (h.issued i x hx) (hid.symm.trans hnew.1)
      rw [hsame]
      exact hnew.2
    refine ⟨⟨hstore.store, hstore.rows, fun j y task hy hserved => ?_, hstore.created⟩, fun k => ?_,
      hgoes.mounted h, h.ids, hgoes.issued h, h.created, h.once⟩
    · rcases submission_cases hy with ⟨-, rfl⟩ | ⟨-, hy⟩
      · cases hserved
        exact serve_answer hr hserve
      · exact hstore.served j y task hy hserved
    · exact (h.forms k).relax h.issued rfl (fun _ hissue => hissue) (fun _ _ hmem => hmem)
        (hgoes.own k)

theorem Inv.outside (h : Inv s) {env : Env} {repositoryId : RepositoryId} {fails : Bool}
    {operation : L4.App.StoreWriterOperation}
    (hapart : ((requestIdOf env operation).all fun id =>
      s.issued.all (·.2.clientRequestId ≠ id)) = true) :
    Inv { s with db := (operation.execute env repositoryId fails s.db).2 } := by
  obtain ⟨log, hr⟩ := reachable_reflects h.store.store
  have hrows : ∀ row ∈ (operation.execute env repositoryId fails s.db).2.tasks,
      (∃ old ∈ s.db.tasks, KeepsRow old row) ∨
        requestIdOf env operation = some row.clientRequestId :=
    execute_rows hr (reachable_chained h.store.store)
  have hstore := h.store.write (.inr (execute_call operation env repositoryId fails s.db))
    fun row hrow => (hrows row hrow).imp_right fun hnew issue hissue hid => by
      rw [hnew, Option.all_some, List.all_eq_true] at hapart
      exact absurd hid.symm (of_decide_eq_true (hapart issue hissue))
  refine ⟨hstore, fun k => ?_, h.mounted, h.ids, h.issued, h.created, h.once⟩
  exact (h.forms k).relax h.issued rfl (fun _ hissue => hissue) (fun _ _ hmem => hmem)
    fun j y hy hf => ⟨y, hy, hf, rfl, rfl, id⟩

/-- The form gets what it has waited for, and waits for nothing. -/
theorem FormOk.done {s' : State} (h : FormOk s k) (hp : Pending s k i x)
    (hsubmissions : s'.submissions = (s.setSubmission i { x with settled := true }).submissions)
    (hversion : (s'.forms k).version = (s.forms k).version)
    (hretry : ∀ c, (s'.forms k).retryCommand = some c → (k, c) ∈ s'.issued ∧ Matches c (s'.forms k) ∧
      c ∉ s'.created.map Prod.fst) : FormOk s' k := by
  have hnone : ∀ j y, ¬Pending s' k j y := by
    intro j y hq
    have hy := hq.submission
    rw [hsubmissions] at hy
    rcases submission_cases hy with ⟨-, rfl⟩ | ⟨hne, hy⟩
    · cases hq.unsettled
    · exact hne (h.single j i y x ⟨hy, hq.form, hq.version.trans hversion, hq.unsettled⟩ hp)
  refine ⟨fun j y hy hf => ?_, fun j y hq => absurd hq (hnone j y),
    fun j j' y y' hq _ => absurd hq (hnone j y), hretry⟩
  rw [hsubmissions] at hy
  rw [hversion]
  rcases submission_cases hy with ⟨-, rfl⟩ | ⟨-, hy⟩
  · exact h.versions i x hp.submission hf
  · exact h.versions j y hy hf

/-- What a settled submission does to its form. -/
theorem settle_spec {platformMessage : String} {reply : Except ClientError Task} {s' : State}
    (hs : s.settle platformMessage i reply = some s') :
    ∃ x, s.submissions i = some x ∧ x.settled = false ∧
      (s' = s.setSubmission i { x with settled := true } ∨
        Pending s x.form i x ∧ ((∃ task, reply = .ok task ∧ x.served = some (some task) ∧
          s' = { (s.setSubmission i { x with settled := true }).setForm x.form
            (s.forms x.form).succeeded with created := s.created ++ [(x.command, task)] }) ∨
          ∃ failure, s' = (s.setSubmission i { x with settled := true }).setForm x.form
            ((s.forms x.form).failed x.command failure))) := by
  unfold State.settle at hs
  split at hs
  · cases hs
  · rename_i x hx
    split at hs
    · cases hs
    · rename_i hunsettled
      have hunsettled := eq_false_of_ne_true hunsettled
      refine ⟨x, hx, hunsettled, ?_⟩
      split at hs
      · rename_i task
        split at hs
        · rename_i hserved
          dsimp only at hs
          split at hs
          · rename_i hversion
            cases hs
            exact .inr ⟨⟨hx, rfl, hversion.symm, hunsettled⟩, .inl ⟨task, rfl, hserved, rfl⟩⟩
          · cases hs
            exact .inl rfl
        · cases hs
      · dsimp only at hs
        split at hs
        · rename_i hversion
          cases hs
          exact .inr ⟨⟨hx, rfl, hversion.symm, hunsettled⟩, .inr ⟨_, rfl⟩⟩
        · cases hs
          exact .inl rfl

/-- A submission that is settled is still that of its command. -/
theorem served_settled (h : Inv s) (hx : s.submissions i = some x) :
    ∀ j y task, (s.setSubmission i { x with settled := true }).submissions j = some y →
      y.served = some (some task) → HasRow s.db y.command task := by
  intro j y task hy hserved
  rcases submission_cases hy with ⟨-, rfl⟩ | ⟨-, hy⟩
  · exact h.store.served i x task hx hserved
  · exact h.store.served j y task hy hserved

theorem settled_goes_on (hx : s.submissions i = some x) :
    GoesOn s (s.setSubmission i { x with settled := true }) :=
  goes_on hx rfl rfl rfl nofun

/-- The form has moved on from the submission. -/
theorem Inv.dropped (h : Inv s) (hx : s.submissions i = some x) :
    Inv (s.setSubmission i { x with settled := true }) := by
  have hgoes := settled_goes_on hx
  exact ⟨⟨h.store.store, h.store.rows, served_settled h hx, h.store.created⟩,
    fun k => (h.forms k).relax h.issued rfl (fun _ hissue => hissue) (fun _ _ hmem => hmem)
      (hgoes.own k),
    hgoes.mounted h, h.ids, hgoes.issued h, h.created, h.once⟩

theorem Inv.succeeded (h : Inv s) (hpending : Pending s x.form i x) {task : Task}
    (hserved : x.served = some (some task)) :
    Inv { (s.setSubmission i { x with settled := true }).setForm x.form (s.forms x.form).succeeded with
      created := s.created ++ [(x.command, task)] } := by
  have hx := hpending.submission
  have hgoes := settled_goes_on hx
  have hown := h.issued i x hx
  obtain ⟨-, -, hnew⟩ := (h.forms x.form).pending i x hpending
  have hcreated : ∀ c ∈ (s.created ++ [(x.command, task)]).map Prod.fst,
      c ∈ s.created.map Prod.fst ∨ c = x.command := by
    intro c hc
    rw [List.map_append] at hc
    exact (List.mem_append.1 hc).imp_right fun hlast => List.mem_singleton.1 hlast
  refine ⟨⟨h.store.store, h.store.rows, served_settled h hx, fun c t hc => ?_⟩, fun k => ?_,
    hgoes.mounted h, h.ids, hgoes.issued h, fun c hc => ?_, ?_⟩
  · rcases List.mem_append.1 hc with hc | hc
    · exact h.store.created c t hc
    · cases List.mem_singleton.1 hc
      exact h.store.served i x task hx hserved
  · by_cases hk : k = x.form
    · rw [hk]
      have hself : ((s.setSubmission i { x with settled := true }).setForm x.form
          (s.forms x.form).succeeded).forms x.form = (s.forms x.form).succeeded := setForm_self ..
      refine (h.forms x.form).done hpending rfl (congrArg (·.version) hself) fun c hc => ?_
      rw [show _ = (s.forms x.form).succeeded from hself] at hc
      cases hc
    · refine (h.forms k).relax h.issued (setForm_other hk ..) (fun _ hissue => hissue)
        (fun c hissue hc => ?_) (hgoes.own k)
      rcases hcreated c hc with hold | rfl
      · exact hold
      · -- the command is that of another form
        exact absurd (congrArg Prod.fst (issued_inj h hissue hown rfl)) hk
  · rcases hcreated c hc with hold | rfl
    · exact h.created c hold
    · exact ⟨x.form, hown⟩
  · rw [List.map_append]
    refine List.nodup_append.2 ⟨h.once, List.nodup_singleton _, ?_⟩
    rintro c hold c' hlast rfl
    have hsame : c = x.command := List.mem_singleton.1 hlast
    rw [hsame] at hold
    exact hnew hold

/-- A failure that may be retried keeps the command, which is that of the form. -/
theorem Inv.failed (h : Inv s) (hpending : Pending s x.form i x) (failure : ComposerFailure) :
    Inv ((s.setSubmission i { x with settled := true }).setForm x.form
      ((s.forms x.form).failed x.command failure)) := by
  have hx := hpending.submission
  have hgoes := settled_goes_on hx
  obtain ⟨-, hmatches, hnew⟩ := (h.forms x.form).pending i x hpending
  refine ⟨⟨h.store.store, h.store.rows, served_settled h hx, h.store.created⟩, fun k => ?_,
    hgoes.mounted h, h.ids, hgoes.issued h, h.created, h.once⟩
  by_cases hk : k = x.form
  · rw [hk]
    have hself : ((s.setSubmission i { x with settled := true }).setForm x.form
        ((s.forms x.form).failed x.command failure)).forms x.form =
          (s.forms x.form).failed x.command failure := setForm_self ..
    refine (h.forms x.form).done hpending rfl (congrArg (·.version) hself) fun c hc => ?_
    rw [hself] at hc ⊢
    simp only [TaskComposer.failed] at hc
    split at hc
    · cases hc
      exact ⟨h.issued i x hx, hmatches, hnew⟩
    · cases hc
  · exact (h.forms k).relax h.issued (setForm_other hk ..) (fun _ hissue => hissue)
      (fun c _ hmem => hmem) (hgoes.own k)

theorem Inv.settle (h : Inv s) {platformMessage : String} {reply : Except ClientError Task} {s' : State}
    (hs : s.settle platformMessage i reply = some s') : Inv s' := by
  obtain ⟨x, hx, -, rfl | ⟨hpending, ⟨task, -, hserved, rfl⟩ | ⟨failure, rfl⟩⟩⟩ := settle_spec hs
  · exact h.dropped hx
  · exact h.succeeded hpending hserved
  · exact h.failed hpending failure

theorem inv_start (repositoryId : Option RepositoryId) (hdb : store.Reachable db) :
    Inv (.start repositoryId db) where
  store := ⟨hdb, fun _ _ _ hissue => absurd hissue List.not_mem_nil, fun _ _ _ hx => (by cases hx),
    fun _ _ hc => absurd hc List.not_mem_nil⟩
  forms k := ⟨fun _ _ hx => (by cases hx), fun _ _ hp => (by cases hp.submission),
    fun _ _ _ _ hp => (by cases hp.submission), fun _ hc => (by cases hc)⟩
  mounted _ _ hx := by cases hx
  ids := List.nodup_nil
  issued _ _ hx := by cases hx
  created _ hc := absurd hc List.not_mem_nil
  once := List.nodup_nil

theorem inv_inductive {platformMessage : String} (hdb : store.Reachable db) :
    (creation platformMessage db).Inductive Inv where
  init s hi := by
    obtain ⟨repositoryId, rfl⟩ := hi
    exact inv_start repositoryId hdb
  step s l s' h hs := by
    change next platformMessage s l = some s' at hs
    cases l with
    | mount repositoryId =>
      cases hs
      exact h.mount repositoryId
    | setRepository repositoryId =>
      cases hs
      exact h.setRepository repositoryId
    | type prompt =>
      simp only [next] at hs
      split at hs
      · cases hs
        exact h.type prompt
      · cases hs
    | submit i clientRequestId => exact h.submit hs
    | serve i env repositoryId fails => exact h.serve hs
    | settle i reply => exact h.settle hs
    | outside env repositoryId fails operation =>
      simp only [next] at hs
      split at hs
      · rename_i hapart
        cases hs
        exact h.outside hapart
      · cases hs

/-! ## The result -/

/-- The rows of all the commands. -/
def State.rows (s : State) : List TaskRow :=
  s.db.tasks.filter fun row => s.issued.any (·.2.clientRequestId = row.clientRequestId)

structure CreationSound (s : State) : Prop where
  /-- a command has one task at most, and its repository and prompt -/
  single : ∀ a ∈ s.db.tasks, ∀ b ∈ s.db.tasks, a.clientRequestId = b.clientRequestId → a = b
  carries : ∀ row ∈ s.db.tasks, ∀ issue ∈ s.issued,
    row.clientRequestId = issue.2.clientRequestId → Carries issue.2 row
  tasks : s.rows.length ≤ s.issued.length
  /-- a command succeeds once, with its task -/
  succeeds : (s.created.map Prod.fst).Nodup
  created : ∀ c task, (c, task) ∈ s.created → HasRow s.db c task
  /-- a form waits for one submission at most, and is locked as long -/
  waits : ∀ k i j x y, Pending s k i x → Pending s k j y → i = j ∧ (s.forms k).submitting = true

structure CreationStep (s : State) (l : Label) (s' : State) : Prop where
  /-- a new command is made only where none is kept -/
  issued : s'.issued = s.issued ∨ s.form.retryCommand = none ∧
    ∃ c, s'.issued = s.issued ++ [(s.mounted, c)] ∧ Matches c s.form
  /-- the form whose command succeeds still says what it asks for -/
  created : s'.created = s.created ∨ ∃ k c task, s'.created = s.created ++ [(c, task)] ∧
    (k, c) ∈ s.issued ∧ Matches c (s.forms k)

theorem rows_length (h : Inv s) : s.rows.length ≤ s.issued.length := by
  have hchained := reachable_chained h.store.store
  have hnodup : (s.rows.map (·.clientRequestId)).Nodup := by
    refine List.Nodup.map_on (fun a ha b hb heq => ?_) ?_
    · exact hchained.requests a (List.mem_of_mem_filter ha) b (List.mem_of_mem_filter hb) heq
    · exact (hchained.ids.of_map _).filter _
  have hsub : s.rows.map (·.clientRequestId) ⊆ s.issued.map fun issue => issue.2.clientRequestId := by
    intro id hid
    obtain ⟨row, hrow, rfl⟩ := List.mem_map.1 hid
    obtain ⟨issue, hissue, heq⟩ := List.any_eq_true.1 (List.mem_filter.1 hrow).2
    exact List.mem_map.2 ⟨issue, hissue, of_decide_eq_true heq⟩
  have := (List.subperm_of_subset hnodup hsub).length_le
  rwa [List.length_map, List.length_map] at this

/-- **One task for one command.** Whatever requests and responses are lost or
late, whoever else writes to the store, and wherever the composers go meanwhile:
a command makes one task at most, with the repository and the prompt it was made
for, however often it is executed; there are no more tasks than commands; a
composer makes another command only when it keeps none; it waits for one
submission at a time; and it reports a task once, the command's, while it still
says what the command asked for. -/
theorem creation_once {platformMessage : String} (hdb : store.Reachable db)
    (hr : (creation platformMessage db).Reachable s) : CreationSound s ∧
      ∀ l s', (creation platformMessage db).step s l s' → CreationStep s l s' := by
  have h := (inv_inductive hdb).reachable s hr
  refine ⟨⟨(reachable_chained h.store.store).requests, h.store.rows, rows_length h, h.once,
    h.store.created, fun k i j x y hx hy => ⟨(h.forms k).single i j x y hx hy,
      ((h.forms k).pending i x hx).1⟩⟩, fun l s' hs => ?_⟩
  change next platformMessage s l = some s' at hs
  cases l with
  | mount repositoryId | setRepository repositoryId =>
    cases hs
    exact ⟨.inl rfl, .inl rfl⟩
  | type prompt =>
    simp only [next] at hs
    split at hs
    · cases hs
      exact ⟨.inl rfl, .inl rfl⟩
    · cases hs
  | submit i clientRequestId =>
    obtain ⟨command, issued, hcommand, -, rfl, ⟨-, rfl⟩ | ⟨hnone, rfl, -⟩⟩ := submit_spec hs
    · exact ⟨.inl rfl, .inl rfl⟩
    · refine ⟨.inr ⟨hnone, command, rfl, ?_⟩, .inl rfl⟩
      rcases (command_spec hcommand).2 with hkept | ⟨-, -, hmatches⟩
      · rw [hnone] at hkept
        cases hkept
      · exact hmatches
  | serve i env repositoryId fails =>
    simp only [next, State.serve] at hs
    split at hs
    · split at hs
      · cases hs
        exact ⟨.inl rfl, .inl rfl⟩
      · cases hs
    · cases hs
  | settle i reply =>
    obtain ⟨x, hx, -, rfl | ⟨hpending, ⟨task, -, -, rfl⟩ | ⟨failure, rfl⟩⟩⟩ := settle_spec hs
    · exact ⟨.inl rfl, .inl rfl⟩
    · exact ⟨.inl rfl, .inr ⟨x.form, x.command, task, rfl, h.issued i x hx,
        ((h.forms x.form).pending i x hpending).2.1⟩⟩
    · exact ⟨.inl rfl, .inl rfl⟩
  | outside env repositoryId fails operation =>
    simp only [next] at hs
    split at hs
    · cases hs
      exact ⟨.inl rfl, .inl rfl⟩
    · cases hs

end

/-! ## A lost request and its late twin -/

def sampleStore : Db := StoreCall.execAll (Db.migrated []) [sampleRegistration]

def sampleAnswer : Option Task :=
  (serve (sampleEnv 3) ⟨7⟩ false ⟨⟨51⟩, ⟨7⟩, [0x74]⟩ sampleStore).1

/-- The first request comes after the second, which executes the same command;
`randomUUID` would have returned another id. -/
def sampleTwice : List Label :=
  [.type [0x74], .submit 0 ⟨51⟩, .settle 0 (.error (.api networkError)), .submit 1 ⟨52⟩,
   .serve 1 (sampleEnv 3) ⟨7⟩ false, .serve 0 (sampleEnv 4) ⟨7⟩ false] ++
  sampleAnswer.toList.map fun task => .settle 1 (.ok task)

theorem creation_once_sample : ∃ s, (creation "" sampleStore).Reachable s ∧
    (s.rows.length, s.issued.length, s.created.length) = (1, 1, 1) ∧ CreationSound s := by
  have hrun : (LTS.exec (next "") (.start (some ⟨7⟩) sampleStore) sampleTwice).map
      (fun s => (s.rows.length, s.issued.length, s.created.length)) = some (1, 1, 1) := by
    decide +kernel
  obtain ⟨s, hs, hcounts⟩ := Option.map_eq_some_iff.1 hrun
  have hr : (creation "" sampleStore).Reachable s := LTS.reachable_of_exec ⟨some ⟨7⟩, rfl⟩ hs
  exact ⟨s, hr, hcounts, (creation_once (reachable_execAll _) hr).1⟩

end CodingAgent.L5.Web.Creation
