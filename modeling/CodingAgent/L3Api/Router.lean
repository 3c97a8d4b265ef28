import CodingAgent.Core.Program
import CodingAgent.Core.Serde
import CodingAgent.L1Domain.Serde
import CodingAgent.L3Api.Http

/-!
# The API router (`coding-agent-api/src/router.rs`)

What the router does with a request: it gives it a request id, checks the
`Host`, finds the handler of its path and method, and runs it. The ports of
the router (`ApiBackend`, `RequestSecurity`), the reading of the body and the
drawing of UUIDs are questions to the environment. A DTO is its document.
-/
namespace CodingAgent.L3.Api.Router
open CodingAgent.L1.Domain
open Http
open Program

/-! ## The ports -/

/-- mirrors crates/coding-agent-api/src/backend.rs:13-15 -/
structure AuthContext where
  sessionId : String
  deriving DecidableEq, Repr

/-- mirrors crates/coding-agent-api/src/contract.rs:52-55 -/
structure AddRepositoryRequest where
  path : String
  deriving DecidableEq, Repr

/-- mirrors crates/coding-agent-api/src/contract.rs:58-64 -/
structure CreateTaskRequest where
  clientRequestId : ClientRequestId
  repositoryId : RepositoryId
  prompt : String
  deriving DecidableEq, Repr

/-- mirrors crates/coding-agent-api/src/contract.rs:38-40 -/
structure SessionExchangeRequest where
  token : String
  deriving DecidableEq, Repr

/-- mirrors crates/coding-agent-api/src/backend.rs:41-44 -/
inductive CreateResult where
  | created (value : Json)
  | existing (value : Json)

/-- mirrors crates/coding-agent-api/src/backend.rs:47-50 -/
inductive CancelResult where
  | finished (task : Json)
  | accepted (task : Json)

/-- The methods of the backend, with their arguments.
mirrors crates/coding-agent-api/src/backend.rs:69-101 -/
inductive Operation where
  | bootstrap
  | listRepositories
  | addRepository (request : AddRepositoryRequest)
  | pickRepository
  | listTasks (repositoryId : Option RepositoryId)
  | createTask (request : CreateTaskRequest)
  | taskDetail (id : TaskId)
  | cancelTask (id : TaskId)
  | retryTask (id : TaskId)
  | taskEvents (id : TaskId) (after : Int)
  | requestQuit
  deriving DecidableEq, Repr

/-- What a method returns. The acceptance of a quit is whether it has its
trigger. -/
@[reducible] def Operation.Reply : Operation → Type
  | .bootstrap | .taskDetail _ => Json
  | .listRepositories | .listTasks _ | .taskEvents _ _ => List Json
  | .addRepository _ | .createTask _ | .retryTask _ => CreateResult
  | .pickRepository => Option CreateResult
  | .cancelTask _ => CancelResult
  | .requestQuit => Bool

/-- What the router asks for. -/
inductive Call where
  /-- `Uuid::new_v4` -/
  | newV4
  /-- the body of the request, as the `Json` extractor reads it: a text, or the
  status it is refused with -/
  | body
  | validateHost (parts : Parts)
  | exchange (parts : Parts) (token : String)
  | authorizeRead (parts : Parts)
  | authorizeMutation (parts : Parts)
  | backend (auth : AuthContext) (operation : Operation)
  deriving DecidableEq

@[reducible] def Answer : Call → Type
  | .newV4 => Uuid
  | .body => Except Nat String
  | .validateHost _ => Except ApiError Unit
  | .exchange _ _ => Except ApiError HeaderValue
  | .authorizeRead _ | .authorizeMutation _ => Except ApiError AuthContext
  | .backend _ operation => Except ApiError operation.Reply

abbrev Handling (R : Type) : Type := Attempt Call Answer ApiError R

/-! ## Errors -/

/-- mirrors crates/coding-agent-api/src/router.rs:732-740 -/
def transportError (status : Nat) (code message : String) : ApiError where
  status := status
  code := code
  message := message
  retryable := false
  details := []

def invalidPathParameter : ApiError :=
  transportError 400 "INVALID_PATH_PARAMETER" "a path parameter is invalid"

def invalidQuery : ApiError := transportError 400 "INVALID_QUERY" "a query parameter is invalid"

def internalQuitError : ApiError :=
  transportError 500 "INTERNAL_ERROR" "the server could not prepare shutdown"

def internalPanicError : ApiError :=
  transportError 500 "INTERNAL_ERROR" "the request could not be completed"

def routeNotFound : ApiError := transportError 404 "NOT_FOUND" "the route was not found"

def routeMethodNotAllowed : ApiError :=
  transportError 405 "METHOD_NOT_ALLOWED" "the method is not allowed for this route"

def unsupportedMediaType : ApiError :=
  transportError 415 "UNSUPPORTED_MEDIA_TYPE" "the request Content-Type must be application/json"

def invalidJson : ApiError :=
  transportError 400 "INVALID_JSON" "the JSON request body is invalid"

/-! ## Reading a request -/

/-- `str::split_once` -/
def splitOnce (c : Char) (cs : List Char) : Option (List Char × List Char) :=
  match cs.dropWhile (· ≠ c) with
  | [] => none
  | _ :: value => some (cs.takeWhile (· ≠ c), value)

/-- The loop of `query_value` from what it has found so far. -/
def queryPairs (key : List Char) (found : Option (List Char)) :
    List (List Char) → Except ApiError (Option (List Char))
  | [] => .ok found
  | pair :: rest =>
    match splitOnce '=' pair with
    | none => .error invalidQuery
    | some (name, value) =>
      if name ≠ key then queryPairs key found rest
      else if value = [] ∨ found.isSome then .error invalidQuery
      else queryPairs key (some value) rest

/-- mirrors crates/coding-agent-api/src/router.rs:670-686 -/
def queryValue (query : Option String) (key : String) : Except ApiError (Option (List Char)) :=
  match query with
  | none => .ok none
  | some query => queryPairs key.toList none (query.toList.splitOn '&')

/-- The digits of an integer below a bound. -/
def parseBelow (bound : Nat) (cs : List Char) : Option Nat :=
  if cs = [] then none
  else (Digits.readNumeral 10 cs).filter fun n => n < bound

/-- `str::parse::<i64>` -/
def parseI64 : List Char → Option Int
  | '+' :: digits => (parseBelow (2 ^ 63) digits).map Int.ofNat
  | '-' :: digits => (parseBelow (2 ^ 63 + 1) digits).map fun n => -Int.ofNat n
  | digits => (parseBelow (2 ^ 63) digits).map Int.ofNat

/-- mirrors crates/coding-agent-api/src/router.rs:658-668 -/
def afterQuery (parts : Parts) : Except ApiError Int := do
  let text := (← queryValue parts.query "after").getD ['0']
  match parseI64 text with
  | none => .error invalidQuery
  | some after => if after < 0 then .error invalidQuery else .ok after

def pathSegments (parts : Parts) : List (List Char) := parts.path.toList.splitOn '/'

/-- mirrors crates/coding-agent-api/src/router.rs:648-656 -/
def taskIdAt (parts : Parts) (segment : Nat) : Except ApiError TaskId :=
  match (pathSegments parts)[segment]?.bind fun text => TaskId.parse (String.ofList text) with
  | some id => .ok id
  | none => .error invalidPathParameter

/-- mirrors crates/coding-agent-api/src/router.rs:688-690 -/
def parseRepositoryId (value : List Char) : Except ApiError RepositoryId :=
  match RepositoryId.parse (String.ofList value) with
  | some id => .ok id
  | none => .error invalidQuery

/-- The `repository_id` of `GET /api/tasks`. -/
def repositoryFilter (parts : Parts) : Except ApiError (Option RepositoryId) := do
  match ← queryValue parts.query "repository_id" with
  | none => .ok none
  | some value => (parseRepositoryId value).map some

/-! ## Documents of requests -/

def readText : Option Json → Option String
  | some (.string text) => some text
  | _ => none

def SessionExchangeRequest.deserialize (v : Json) : Option SessionExchangeRequest := do
  match ← Serde.fields ["token"] v with
  | [token] => return { token := ← readText token }
  | _ => none

def AddRepositoryRequest.deserialize (v : Json) : Option AddRepositoryRequest := do
  match ← Serde.fields ["path"] v with
  | [path] => return { path := ← readText path }
  | _ => none

def CreateTaskRequest.deserialize (v : Json) : Option CreateTaskRequest := do
  match ← Serde.fields ["client_request_id", "repository_id", "prompt"] v with
  | [clientRequestId, repositoryId, prompt] =>
    return {
      clientRequestId := ← (readText clientRequestId).bind ClientRequestId.parse
      repositoryId := ← (readText repositoryId).bind RepositoryId.parse
      prompt := ← readText prompt }
  | _ => none

/-! The text of a request may have other members; they are skipped. -/

def SessionExchangeRequest.fromStr (text : String) : Option SessionExchangeRequest :=
  (Serde.fromStrAs ["token"] text).bind SessionExchangeRequest.deserialize

def AddRepositoryRequest.fromStr (text : String) : Option AddRepositoryRequest :=
  (Serde.fromStrAs ["path"] text).bind AddRepositoryRequest.deserialize

def CreateTaskRequest.fromStr (text : String) : Option CreateTaskRequest :=
  (Serde.fromStrAs ["client_request_id", "repository_id", "prompt"] text).bind
    CreateTaskRequest.deserialize

/-- A text that is a document is read as that document. -/
theorem deserialize_fromStrAs {T : Type} {names : List String} {read : List (Option Json) → Option T}
    {text : String} {v : Json} (h : Serde.fromStr text = some v) :
    (Serde.fromStrAs names text).bind (fun v => (Serde.fields names v).bind read) =
      (Serde.fields names v).bind read := by
  rw [← Option.bind_assoc, Serde.fields_fromStrAs names h]

theorem SessionExchangeRequest.fromStr_eq {text : String} {v : Json}
    (h : Serde.fromStr text = some v) :
    SessionExchangeRequest.fromStr text = SessionExchangeRequest.deserialize v :=
  deserialize_fromStrAs h

theorem AddRepositoryRequest.fromStr_eq {text : String} {v : Json}
    (h : Serde.fromStr text = some v) :
    AddRepositoryRequest.fromStr text = AddRepositoryRequest.deserialize v :=
  deserialize_fromStrAs h

theorem CreateTaskRequest.fromStr_eq {text : String} {v : Json}
    (h : Serde.fromStr text = some v) :
    CreateTaskRequest.fromStr text = CreateTaskRequest.deserialize v :=
  deserialize_fromStrAs h

/-- What `decode_json` makes of the body.
mirrors crates/coding-agent-api/src/router.rs:614-634 -/
def decodeJson {T : Type} (fromStr : String → Option T) : Except Nat String → Except ApiError T
  | .error status => .error (if status = 415 then unsupportedMediaType else invalidJson)
  | .ok text =>
    match fromStr text with
    | some value => .ok value
    | none => .error invalidJson

/-! ## Handlers -/

/-- The `?` on a result that is at hand. -/
def check {R : Type} (result : Except ApiError R) : Handling R := ExceptT.mk (pure result)

def decode {T : Type} (fromStr : String → Option T) : Handling T :=
  ExceptT.mk do
    let body ← call Call.body
    pure (decodeJson fromStr body)

section
variable (parts : Parts)

def authorizeRead : Handling AuthContext := ExceptT.mk (call (Call.authorizeRead parts))

def authorizeMutation : Handling AuthContext := ExceptT.mk (call (Call.authorizeMutation parts))

def backend (auth : AuthContext) (operation : Operation) : Handling operation.Reply :=
  ExceptT.mk (call (Call.backend auth operation))

/-- mirrors crates/coding-agent-api/src/router.rs:485-490 -/
def createdResponse : CreateResult → Response
  | .created value => .json 201 value
  | .existing value => .json 200 value

/-- mirrors crates/coding-agent-api/src/contract.rs:822-834 -/
def cancellationAcceptedResponse (task : Json) : Json :=
  .object [("task", task), ("cancellation_requested", .bool true)]

/-- mirrors crates/coding-agent-api/src/contract.rs:848-852 -/
def quitDocument : Json := .object [("status", .string "shutting_down")]

/-- mirrors crates/coding-agent-api/src/router.rs:492-514 -/
def quitResponse : Response where
  status := 202
  headers := [("content-type", .ofText "application/json")]
  body := .quit quitDocument

/-- What a handler makes of the reply of its operation. -/
def render : (operation : Operation) → operation.Reply → Except ApiError Response
  | .bootstrap, value | .taskDetail _, value => .ok (.json 200 value)
  | .listRepositories, values | .listTasks _, values | .taskEvents _ _, values =>
    .ok (.json 200 (.array values))
  | .addRepository _, result | .createTask _, result | .retryTask _, result =>
    .ok (createdResponse result)
  | .pickRepository, some result => .ok (createdResponse result)
  | .pickRepository, none => .ok (.empty 204)
  | .cancelTask _, .finished task => .ok (.json 200 task)
  | .cancelTask _, .accepted task => .ok (.json 202 (cancellationAcceptedResponse task))
  | .requestQuit, true => .ok quitResponse
  | .requestQuit, false => .error internalQuitError

/-- mirrors crates/coding-agent-api/src/router.rs:95-113 -/
def exchangeSession : Handling Response := do
  let body ← decode SessionExchangeRequest.fromStr
  let setCookie ← ExceptT.mk (call (Call.exchange parts body.token))
  return (Response.empty 204).setHeader "set-cookie" setCookie

/-- mirrors crates/coding-agent-api/src/router.rs:127-139 -/
def bootstrap : Handling Response := do
  let auth ← authorizeRead parts
  let reply ← backend auth .bootstrap
  check (render .bootstrap reply)

/-- mirrors crates/coding-agent-api/src/router.rs:153-165 -/
def repositories : Handling Response := do
  let auth ← authorizeRead parts
  let reply ← backend auth .listRepositories
  check (render .listRepositories reply)

/-- mirrors crates/coding-agent-api/src/router.rs:183-199 -/
def addRepository : Handling Response := do
  let auth ← authorizeMutation parts
  let input ← decode AddRepositoryRequest.fromStr
  let reply ← backend auth (.addRepository input)
  check (render (.addRepository input) reply)

/-- mirrors crates/coding-agent-api/src/router.rs:217-232 -/
def pickRepository : Handling Response := do
  let auth ← authorizeMutation parts
  let reply ← backend auth .pickRepository
  check (render .pickRepository reply)

/-- mirrors crates/coding-agent-api/src/router.rs:247-262 -/
def tasks : Handling Response := do
  let auth ← authorizeRead parts
  let repositoryId ← check (repositoryFilter parts)
  let reply ← backend auth (.listTasks repositoryId)
  check (render (.listTasks repositoryId) reply)

/-- mirrors crates/coding-agent-api/src/router.rs:281-297 -/
def createTask : Handling Response := do
  let auth ← authorizeMutation parts
  let input ← decode CreateTaskRequest.fromStr
  let reply ← backend auth (.createTask input)
  check (render (.createTask input) reply)

/-- mirrors crates/coding-agent-api/src/router.rs:313-326 -/
def taskDetail : Handling Response := do
  let auth ← authorizeRead parts
  let id ← check (taskIdAt parts 3)
  let reply ← backend auth (.taskDetail id)
  check (render (.taskDetail id) reply)

/-- mirrors crates/coding-agent-api/src/router.rs:344-364 -/
def cancelTask : Handling Response := do
  let auth ← authorizeMutation parts
  let id ← check (taskIdAt parts 3)
  let reply ← backend auth (.cancelTask id)
  check (render (.cancelTask id) reply)

/-- mirrors crates/coding-agent-api/src/router.rs:382-395 -/
def retryTask : Handling Response := do
  let auth ← authorizeMutation parts
  let id ← check (taskIdAt parts 3)
  let reply ← backend auth (.retryTask id)
  check (render (.retryTask id) reply)

/-- mirrors crates/coding-agent-api/src/router.rs:414-428 -/
def taskEvents : Handling Response := do
  let auth ← authorizeRead parts
  let id ← check (taskIdAt parts 3)
  let after ← check (afterQuery parts)
  let reply ← backend auth (.taskEvents id after)
  check (render (.taskEvents id after) reply)

/-- mirrors crates/coding-agent-api/src/router.rs:442-455 -/
def events : Handling Response := do
  let _auth ← authorizeRead parts
  let after ← check (afterQuery parts)
  return .events after

/-- mirrors crates/coding-agent-api/src/router.rs:469-483 -/
def quit : Handling Response := do
  let auth ← authorizeMutation parts
  let reply ← backend auth .requestQuit
  check (render .requestQuit reply)

end

/-! ## Routes -/

inductive Route where
  | exchangeSession
  | bootstrap
  | repositories
  | pickRepository
  | tasks
  | task
  | cancelTask
  | retryTask
  | taskEvents
  | events
  | quit
  deriving DecidableEq, Repr

/-- The route of a path; `{id}` is any segment that is not empty.
mirrors crates/coding-agent-api/src/router.rs:65-80 -/
def route (parts : Parts) : Option Route :=
  match (pathSegments parts).map String.ofList with
  | ["", "api", "session", "exchange"] => some .exchangeSession
  | ["", "api", "bootstrap"] => some .bootstrap
  | ["", "api", "repositories"] => some .repositories
  | ["", "api", "repositories", "pick"] => some .pickRepository
  | ["", "api", "tasks"] => some .tasks
  | ["", "api", "tasks", id] => if id = "" then none else some .task
  | ["", "api", "tasks", id, "cancel"] => if id = "" then none else some .cancelTask
  | ["", "api", "tasks", id, "retry"] => if id = "" then none else some .retryTask
  | ["", "api", "tasks", id, "events"] => if id = "" then none else some .taskEvents
  | ["", "api", "events"] => some .events
  | ["", "api", "app", "quit"] => some .quit
  | _ => none

/-- The handler of a route and a method; a route of `GET` answers `HEAD` too. -/
def handler (parts : Parts) (route : Route) : Option (Handling Response) :=
  match route, (if parts.method = .head then .get else parts.method) with
  | .exchangeSession, .post => some (exchangeSession parts)
  | .bootstrap, .get => some (bootstrap parts)
  | .repositories, .get => some (repositories parts)
  | .repositories, .post => some (addRepository parts)
  | .pickRepository, .post => some (pickRepository parts)
  | .tasks, .get => some (tasks parts)
  | .tasks, .post => some (createTask parts)
  | .task, .get => some (taskDetail parts)
  | .cancelTask, .post => some (cancelTask parts)
  | .retryTask, .post => some (retryTask parts)
  | .taskEvents, .get => some (taskEvents parts)
  | .events, .get => some (events parts)
  | .quit, .post => some (quit parts)
  | _, _ => none

/-- mirrors crates/coding-agent-api/src/router.rs:577-579 -/
def finish (requestId : String) : Except ApiError Response → Response
  | .ok response => response
  | .error error => .error error requestId

/-- What answers a request that passed the guards. -/
def dispatch (parts : Parts) (requestId : String) : Program Call Answer Response :=
  match route parts with
  | none => pure (.error routeNotFound requestId)
  | some route =>
    match handler parts route with
    | none => pure (.error routeMethodNotAllowed requestId)
    | some handler => finish requestId <$> handler.run

/-! ## Middleware -/

/-- The request id that came with a request: one header, in the canonical
text of a UUID. -/
def canonicalRequestId (headers : HeaderMap) : Option String :=
  match headers.getAll "x-request-id" with
  | [value] =>
    match value.toStr with
    | some text => (Uuid.parse text).bind fun id => if text = id.text then some id.text else none
    | none => none
  | _ => none

/-- mirrors crates/coding-agent-api/src/router.rs:601-612 -/
def chooseRequestId (headers : HeaderMap) : Program Call Answer String :=
  match canonicalRequestId headers with
  | some id => pure id
  | none => do
    let id ← call Call.newV4
    pure id.text

/-- mirrors crates/coding-agent-api/src/router.rs:542-553 -/
def hostGuard (parts : Parts) (requestId : String) (next : Program Call Answer Response) :
    Program Call Answer Response := do
  match ← call (Call.validateHost parts) with
  | .error error => pure (.error error requestId)
  | .ok () => next

/-- mirrors crates/coding-agent-api/src/router.rs:516-540 -/
def requestEnvelope (parts : Parts) (next : String → Program Call Answer Response) :
    Program Call Answer Response := do
  let requestId ← chooseRequestId parts.headers
  let response ← (next requestId).recover (pure (.error internalPanicError requestId))
  pure (response.setHeader "x-request-id" (.ofText requestId))

/-- mirrors crates/coding-agent-api/src/router.rs:42-59 -/
def apiRouter (parts : Parts) : Program Call Answer Response :=
  requestEnvelope parts fun requestId => hostGuard parts requestId (dispatch parts requestId)

end CodingAgent.L3.Api.Router
