import CodingAgent.L1Domain.ServiceState
import CodingAgent.L5Web.Detail
import Mathlib.Logic.Function.Basic

/-!
# The client's state and reducer (`web/src/state/{model,reducer}.ts`)

`agentReducer` over all of its actions. A `Record<string, T>` is a partial
function of its keys; the order lists are kept beside it as in the source.

Each group of actions has a lemma that says which fields it touches; the
invariants of `L5Web.Session` are proved from those.
-/
namespace CodingAgent.L5.Web
open CodingAgent.L1.Domain CodingAgent.L2 CodingAgent.L2.Store

/-! ## Records -/

/-- `Record<K, V>`. -/
abbrev Rec (K V : Type) := K → Option V

def Rec.empty {K V : Type} : Rec K V := fun _ => none

/-- `{ ...m, [k]: v }`. -/
def Rec.put {K V : Type} [DecidableEq K] (m : Rec K V) (k : K) (v : V) : Rec K V :=
  fun x => if x = k then some v else m x

@[simp] theorem Rec.put_self {K V : Type} [DecidableEq K] (m : Rec K V) (k : K) (v : V) :
    m.put k v k = some v := if_pos rfl

theorem Rec.put_other {K V : Type} [DecidableEq K] (m : Rec K V) {k x : K} (v : V) (h : x ≠ k) :
    m.put k v x = m x := if_neg h

/-- `delete m[k]` on a copy. -/
def Rec.delete {K V : Type} [DecidableEq K] (m : Rec K V) (k : K) : Rec K V :=
  fun x => if x = k then none else m x

/-! ## The state -/

/-- mirrors web/src/state/model.ts:9-16 -/
inductive AgentConnectionState where
  | bootstrapping
  | live
  | reconnecting
  | recovering
  | unavailable
  | protocolError
  | sessionExpired
  deriving DecidableEq, Repr

/-- mirrors web/src/state/model.ts:18-23 -/
structure IgnoredEventDiagnostic where
  id : Nat
  kind : String
  schemaVersion : Nat
  message : String
  deriving DecidableEq, Repr

/-- mirrors web/src/state/model.ts:25-30 -/
structure CommandError where
  code : String
  message : String
  retryable : Bool
  requestId : Option String
  deriving DecidableEq, Repr

/-- mirrors web/src/state/model.ts:32-42 -/
inductive CancelCommandState where
  | pending
  | error (error : CommandError)
  deriving DecidableEq, Repr

/-- mirrors web/src/state/model.ts:48-66 -/
structure AgentState where
  repositoriesById : Rec RepositoryId Repository
  repositoryOrder : List RepositoryId
  tasksById : Rec TaskId Task
  taskOrder : List TaskId
  selectedTaskId : Option TaskId
  selectedDetail : Option TaskDetail
  selectionGeneration : Nat
  detailLoading : Bool
  detailError : Option String
  liveBufferByTaskId : Rec TaskId (List TaskEvent)
  appliedEventId : Nat
  serviceState : Option ServiceState
  serviceGeneration : Nat
  diagnostics : List IgnoredEventDiagnostic
  cancelByTaskId : Rec TaskId CancelCommandState
  connection : AgentConnectionState
  recoveryReason : Option String

/-- mirrors web/src/state/model.ts:68-86 -/
def initialAgentState : AgentState :=
  { repositoriesById := .empty, repositoryOrder := [], tasksById := .empty, taskOrder := [],
    selectedTaskId := none, selectedDetail := none, selectionGeneration := 0,
    detailLoading := false, detailError := none, liveBufferByTaskId := .empty,
    appliedEventId := 0, serviceState := none, serviceGeneration := 0, diagnostics := [],
    cancelByTaskId := .empty, connection := .bootstrapping, recoveryReason := none }

/-- The bootstrap document. -/
structure BootstrapResponse where
  repositories : List Repository
  tasks : List Task
  latestEventId : Nat
  serviceState : ServiceState
  serviceStateGeneration : Nat
  deriving DecidableEq, Repr

/-- mirrors web/src/state/reducer.ts:17-42 -/
inductive AgentAction where
  | bootstrapStarted
  | bootstrapReceived (bootstrap : BootstrapResponse)
  | bootstrapFailed (reason : String) (protocol : Bool)
  | connectionChanged (connection : AgentConnectionState) (reason : Option String)
  | sessionExpired
  | repositoryUpserted (repository : Repository)
  | taskUpserted (task : Task)
  | taskSelected (taskId : TaskId)
  | detailReceived (taskId : TaskId) (generation : Nat) (detail : TaskDetail)
  | detailFailed (taskId : TaskId) (generation : Nat) (message : String)
  | eventReceived (event : TaskEvent)
  | eventUnknown (id : Nat) (kind : String) (schemaVersion : Nat)
  | serviceReceived (state : ServiceState) (generation : Nat)
  | cancelStarted (taskId : TaskId)
  | cancelSucceeded (task : Task)
  | cancelFailed (taskId : TaskId) (error : CommandError)
  deriving DecidableEq, Repr

/-! ## Helpers -/

def supportedSchemaVersion : Nat := 1

def maxDiagnostics : Nat := 100

/-- mirrors web/src/state/reducer.ts:61-71 -/
def normalizeById {K T : Type} [DecidableEq K] (key : T → K) (values : List T) :
    Rec K T × List K :=
  values.foldl (fun acc value =>
    (acc.1.put (key value) value,
      if (acc.1 (key value)).isSome then acc.2 else acc.2 ++ [key value])) (.empty, [])

/-- mirrors web/src/state/reducer.ts:73-79 -/
def protocolError (state : AgentState) (reason : String) : AgentState :=
  { state with connection := .protocolError, recoveryReason := some reason }

/-- mirrors web/src/state/reducer.ts:81-87 -/
def withTask (state : AgentState) (value : Task) : AgentState :=
  { state with
    tasksById := state.tasksById.put value.id value
    taskOrder := if (state.tasksById value.id).isSome then state.taskOrder
      else state.taskOrder ++ [value.id] }

/-- mirrors web/src/state/reducer.ts:89-100 -/
def withRepository (state : AgentState) (value : Repository) : AgentState :=
  { state with
    repositoriesById := state.repositoriesById.put value.id value
    repositoryOrder := if (state.repositoriesById value.id).isSome then state.repositoryOrder
      else state.repositoryOrder ++ [value.id] }

/-- mirrors web/src/state/reducer.ts:113-120 -/
def isTerminalTask (task : Task) : Bool :=
  task.status = .completed || task.status = .failed || task.status = .cancelled ||
    task.status = .interrupted

theorem isTerminalTask_eq (task : Task) : isTerminalTask task = task.status.isRetryable := by
  unfold isTerminalTask
  cases task.status <;> rfl

/-- mirrors web/src/state/reducer.ts:122-134 -/
def reconcileCommands (state : AgentState) (tasksById : Rec TaskId Task) :
    Rec TaskId CancelCommandState := fun taskId =>
  match tasksById taskId with
  | some task => if isTerminalTask task then none else state.cancelByTaskId taskId
  | none => none

/-- mirrors web/src/state/reducer.ts:136-146 -/
def upsertRestTask (state : AgentState) (task : Task) : AgentState :=
  match state.tasksById task.id with
  | some current =>
    if task.lastEventId.get < current.lastEventId.get ∨
        (isTerminalTask current ∧ ¬ isTerminalTask task) then state
    else withTask state task
  | none => withTask state task

/-- The summary part of an event.
mirrors web/src/state/reducer.ts:226-253 -/
def updateSummaryForEvent (state : AgentState) (event : TaskEvent) : AgentState :=
  match event.payload.task? with
  | some task =>
    match state.tasksById event.taskId with
    | some current =>
      if task.lastEventId.get ≤ current.lastEventId.get ∨
          (isTerminalTask current ∧ ¬ isTerminalTask task) then state
      else withTask state task
    | none => withTask state task
  | none =>
    match state.tasksById event.taskId with
    | none => state
    | some current =>
      if event.id.get ≤ current.lastEventId.get then state
      else { state with
        tasksById := state.tasksById.put event.taskId { current with lastEventId := event.id } }

/-- mirrors web/src/state/reducer.ts:255-262 -/
def removeCancelCommand (state : AgentState) (taskId : TaskId) : Rec TaskId CancelCommandState :=
  state.cancelByTaskId.delete taskId

/-- The selected pane after an event: the detail, or else the live buffer.
mirrors web/src/state/reducer.ts:276-290 -/
def updateSelection (state : AgentState) (event : TaskEvent) :
    Option TaskDetail × Rec TaskId (List TaskEvent) :=
  if state.selectedTaskId = some event.taskId then
    let buffer :=
      let buffered := (state.liveBufferByTaskId event.taskId).getD []
      if buffered.any fun item => item.id = event.id then state.liveBufferByTaskId
      else state.liveBufferByTaskId.put event.taskId (buffered ++ [event])
    match state.selectedDetail with
    | some detail =>
      if detail.task.id = event.taskId then
        (some (applyEventToDetail detail event), state.liveBufferByTaskId)
      else (some detail, buffer)
    | none => (none, buffer)
  else (state.selectedDetail, state.liveBufferByTaskId)

/-- mirrors web/src/state/reducer.ts:264-305 -/
def reducePersistedEvent (state : AgentState) (event : TaskEvent) : AgentState :=
  if event.schemaVersion ≠ supportedSchemaVersion then
    protocolError state "unsupported_schema_version"
  else if event.id.get = state.appliedEventId then state
  else if event.id.get < state.appliedEventId then protocolError state "non_monotonic_event_id"
  else
    let selection := updateSelection state event
    let commands :=
      match event.payload.task? with
      | some task =>
        if isTerminalTask task then removeCancelCommand state event.taskId
        else state.cancelByTaskId
      | none => state.cancelByTaskId
    { updateSummaryForEvent state event with
      selectedDetail := selection.1
      liveBufferByTaskId := selection.2
      appliedEventId := event.id.get
      cancelByTaskId := commands }

/-- mirrors web/src/state/reducer.ts:307-339 -/
def installDetail (state : AgentState) (taskId : TaskId) (generation : Nat) (detail : TaskDetail) :
    AgentState :=
  if state.selectedTaskId ≠ some taskId ∨ state.selectionGeneration ≠ generation then state
  else
    let buffered := (((state.liveBufferByTaskId taskId).getD []).filter
      fun event => detail.eventCursor < event.id.get).insertionSort fun a b => a.id.get ≤ b.id.get
    let installed := buffered.foldl applyEventToDetail detail
    let summary :=
      match state.tasksById taskId with
      | some existing =>
        if installed.task.lastEventId.get < existing.lastEventId.get then state
        else withTask state installed.task
      | none => withTask state installed.task
    { summary with
      selectedDetail := some installed
      detailLoading := false
      detailError := none
      liveBufferByTaskId := state.liveBufferByTaskId.put taskId [] }

/-- mirrors web/src/state/reducer.ts:341-346 -/
def appendDiagnostic (state : AgentState) (diagnostic : IgnoredEventDiagnostic) :
    List IgnoredEventDiagnostic :=
  let all := state.diagnostics ++ [diagnostic]
  all.drop (all.length - maxDiagnostics)

/-- mirrors web/src/state/reducer.ts:356-389 -/
def installBootstrap (state : AgentState) (bootstrap : BootstrapResponse) : AgentState :=
  let repositories := normalizeById Repository.id bootstrap.repositories
  let tasks := normalizeById Task.id bootstrap.tasks
  let selectedTaskId := state.selectedTaskId.filter fun id => (tasks.1 id).isSome
  let acceptServiceGeneration := state.serviceGeneration ≤ bootstrap.serviceStateGeneration
  { state with
    repositoriesById := repositories.1
    repositoryOrder := repositories.2
    tasksById := tasks.1
    taskOrder := tasks.2
    selectedTaskId
    selectedDetail := none
    selectionGeneration :=
      if selectedTaskId = none then state.selectionGeneration else state.selectionGeneration + 1
    detailLoading := selectedTaskId.isSome
    detailError := none
    liveBufferByTaskId :=
      match selectedTaskId with
      | none => .empty
      | some id => Rec.put .empty id []
    appliedEventId := bootstrap.latestEventId
    serviceState :=
      if acceptServiceGeneration then some bootstrap.serviceState else state.serviceState
    serviceGeneration :=
      if acceptServiceGeneration then bootstrap.serviceStateGeneration else state.serviceGeneration
    cancelByTaskId := reconcileCommands state tasks.1
    connection := .live
    recoveryReason := none }

/-- mirrors web/src/state/reducer.ts:413-422 -/
def selectTask (state : AgentState) (taskId : TaskId) : AgentState :=
  { state with
    selectedTaskId := some taskId
    selectedDetail := none
    selectionGeneration := state.selectionGeneration + 1
    detailLoading := true
    detailError := none
    liveBufferByTaskId := Rec.put .empty taskId [] }

/-- mirrors web/src/state/reducer.ts:444-464 -/
def reduceUnknownEvent (state : AgentState) (id : Nat) (kind : String) (schemaVersion : Nat) :
    AgentState :=
  if schemaVersion ≠ supportedSchemaVersion then protocolError state "unsupported_schema_version"
  else if id = state.appliedEventId then state
  else if id < state.appliedEventId then protocolError state "non_monotonic_event_id"
  else
    { state with
      appliedEventId := id
      diagnostics := appendDiagnostic state
        { id, kind, schemaVersion,
          message := "Ignored an event kind that this client does not yet understand." } }

/-- The response of a cancel is an upsert with the same two guards, and ends
the command when the task is then terminal.
mirrors web/src/state/reducer.ts:485-503 -/
def reduceCancelSucceeded (state : AgentState) (task : Task) : AgentState :=
  let update := upsertRestTask state task
  let commands :=
    match update.tasksById task.id with
    | some resulting =>
      if isTerminalTask resulting then removeCancelCommand state task.id else state.cancelByTaskId
    | none => state.cancelByTaskId
  { update with cancelByTaskId := commands }

/-- mirrors web/src/state/reducer.ts:504-526 -/
def reduceCancelFailed (state : AgentState) (taskId : TaskId) (error : CommandError) : AgentState :=
  let failed := { state with cancelByTaskId := state.cancelByTaskId.put taskId (.error error) }
  match state.tasksById taskId with
  | some current =>
    if isTerminalTask current then { state with cancelByTaskId := removeCancelCommand state taskId }
    else failed
  | none => failed

/-- mirrors web/src/state/reducer.ts:348-528 -/
def agentReducer (state : AgentState) : AgentAction → AgentState
  | .bootstrapStarted => { state with connection := .bootstrapping, recoveryReason := none }
  | .bootstrapReceived bootstrap => installBootstrap state bootstrap
  | .bootstrapFailed reason protocol =>
    { state with
      connection := if protocol then .protocolError else .unavailable
      recoveryReason := some reason }
  | .connectionChanged connection reason => { state with connection, recoveryReason := reason }
  | .sessionExpired =>
    { state with connection := .sessionExpired, recoveryReason := some "session_expired",
                 cancelByTaskId := .empty }
  | .repositoryUpserted repository => withRepository state repository
  | .taskUpserted task => upsertRestTask state task
  | .taskSelected taskId => selectTask state taskId
  | .detailReceived taskId generation detail => installDetail state taskId generation detail
  | .detailFailed taskId generation message =>
    if state.selectedTaskId ≠ some taskId ∨ state.selectionGeneration ≠ generation then state
    else { state with detailLoading := false, detailError := some message }
  | .eventReceived event => reducePersistedEvent state event
  | .eventUnknown id kind schemaVersion => reduceUnknownEvent state id kind schemaVersion
  | .serviceReceived serviceState generation =>
    if generation ≤ state.serviceGeneration then state
    else { state with serviceState := some serviceState, serviceGeneration := generation }
  | .cancelStarted taskId =>
    { state with cancelByTaskId := state.cancelByTaskId.put taskId .pending }
  | .cancelSucceeded task => reduceCancelSucceeded state task
  | .cancelFailed taskId error => reduceCancelFailed state taskId error

end CodingAgent.L5.Web
