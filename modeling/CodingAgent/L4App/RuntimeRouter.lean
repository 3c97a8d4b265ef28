import CodingAgent.L3Api.RouterContract
import CodingAgent.L4App.SingleInstance
import CodingAgent.L4App.StaticAssets

/-!
# The router of the process (`coding-agent-app/src/server.rs`)

What is around the API router: the guard that checks the `Host` and refuses
everything but the local endpoints while the process starts, the two local
endpoints, the embedded files behind every other path, and the headers each
response leaves with.

* `runtimeRouter_ensures`: the contract of the router, whatever its ports
  answer; that of the API router holds inside it.
* `applyResponsePolicy_policy`: the headers of a response.
-/
namespace CodingAgent.L4.App.Runtime
open CodingAgent.L1.Domain CodingAgent.L3.Api.Http CodingAgent.L3.Api.Router Program
open SingleInstance (StartupPhase)

/-! ## The ports -/

/-- What the router asks for. -/
inductive RuntimeCall where
  | api (call : Call)
  /-- `StartupPhaseController::current` -/
  | phase
  | authorizeLauncher (parts : Parts)
  /-- `WallClock::now_utc`, in nanoseconds -/
  | nowUtc
  | issueLaunchToken
  deriving DecidableEq

@[reducible] def RuntimeAnswer : RuntimeCall → Type
  | .api call => Answer call
  | .phase => StartupPhase
  | .authorizeLauncher _ => Except ApiError Unit
  | .nowUtc => Int
  | .issueLaunchToken => Option String

abbrev RuntimePast : Type := List (Asked RuntimeCall RuntimeAnswer)

def apiEmbedding : Embedding Call Answer RuntimeCall RuntimeAnswer where
  query := .api
  answer _ := Equiv.refl _

/-- What the router is built with. -/
structure RuntimeState where
  instanceId : Uuid
  publicOrigin : String
  web : StaticAssets.Web HeaderMap

/-! ## Errors -/

/-- mirrors crates/coding-agent-app/src/server.rs:1046-1054 -/
def apiError (status : Nat) (code message : String) (retryable : Bool) : ApiError where
  status := status
  code := code
  message := message
  retryable := retryable
  details := []

def appStarting : ApiError := apiError 503 "APP_STARTING" "the application is starting" true

def internalError : ApiError :=
  apiError 500 "INTERNAL_ERROR" "the request could not be completed" false

def randomUnavailable : ApiError :=
  apiError 500 "SECURITY_RANDOM_UNAVAILABLE" "secure random generation is temporarily unavailable"
    false

/-! ## The local endpoints -/

def localReadyPath : String := "/_local/ready"

def localReopenPath : String := "/_local/reopen"

/-- mirrors crates/coding-agent-app/src/single_instance.rs:491-494 -/
def phaseDto : StartupPhase → String
  | .starting => "starting"
  | .ready => "ready"

section
variable (env : RuntimeState) (parts : Parts) (requestId : String)

/-- mirrors crates/coding-agent-app/src/server.rs:171-182 -/
def localReady : Program RuntimeCall RuntimeAnswer Response := do
  match ← call (RuntimeCall.authorizeLauncher parts) with
  | .error error => pure (.error error requestId)
  | .ok () => do
    let state ← call RuntimeCall.phase
    pure (.json 200 (.object [("instance_id", .string env.instanceId.text),
      ("state", .string (phaseDto state))]))

/-- 120 s, in nanoseconds. -/
def tokenLifetime : Int := 120 * 10 ^ 9

/-- The deadline that is reported.
mirrors crates/coding-agent-app/src/server.rs:194-207 -/
def reopenDeadline (now : Int) : Except DomainError UtcTimestamp :=
  UtcTimestamp.new (min (now + tokenLifetime) maxNanos)

def reopenUrl (token : String) : String := env.publicOrigin ++ "/#token=" ++ token

/-- mirrors crates/coding-agent-app/src/server.rs:184-231 -/
def localReopen : Program RuntimeCall RuntimeAnswer Response := do
  match ← call (RuntimeCall.authorizeLauncher parts) with
  | .error error => pure (.error error requestId)
  | .ok () => do
    if (← call RuntimeCall.phase) ≠ .ready then
      pure (.error appStarting requestId)
    else
      match reopenDeadline (← call RuntimeCall.nowUtc) with
      | .error _ => pure (.error internalError requestId)
      | .ok expiresAt =>
        match ← call RuntimeCall.issueLaunchToken with
        | none => pure (.error randomUnavailable requestId)
        | some token =>
          pure (.json 200 (.object [("url", .string (reopenUrl env token)),
            ("expires_at", .string expiresAt.text)]))

/-! ## Files -/

def staticMethod : Method → StaticAssets.Method
  | .get => .get
  | .head => .head
  | .post => .other "POST"
  | .other name => .other name

/-- The headers of a file.
mirrors crates/coding-agent-app/src/static_assets.rs:199-231 -/
def staticResponse (response : StaticAssets.Response) : Response where
  status := response.status
  headers := (response.contentType.toList.map fun mime => ("content-type", .ofText mime)) ++
    [("cache-control", .ofText response.cacheControl)]
  body := .bytes response.body

def serveStatic : Response :=
  staticResponse (StaticAssets.responseFor env.web
    { method := staticMethod parts.method, path := parts.path, headers := parts.headers })

/-! ## The guard -/

/-- mirrors crates/coding-agent-app/src/server.rs:164-169 -/
def pathIsWithin (path area : String) : Bool :=
  path = area ||
    (area.toList.isPrefixOf path.toList && (path.toList.drop area.toList.length).head? = some '/')

def localStartupPath : Bool := parts.path = localReadyPath || parts.path = localReopenPath

/-- The routes of the process: a local endpoint, the API, or a file.
mirrors crates/coding-agent-app/src/server.rs:73-95 -/
def runtimeRoutes : Program RuntimeCall RuntimeAnswer Response :=
  if parts.path = localReadyPath then
    if parts.method = .get ∨ parts.method = .head then localReady env parts requestId
    else pure (.empty 405)
  else if parts.path = localReopenPath then
    if parts.method = .post then localReopen env parts requestId else pure (.empty 405)
  else
    match route parts with
    | some _ => (apiRouter parts).lift apiEmbedding
    | none => pure (serveStatic env parts)

/-- mirrors crates/coding-agent-app/src/server.rs:241-252 -/
def chooseRuntimeRequestId (headers : HeaderMap) : Program RuntimeCall RuntimeAnswer String :=
  match canonicalRequestId headers with
  | some id => pure id
  | none => do
    let id ← call (RuntimeCall.api .newV4)
    pure id.text

/-- mirrors crates/coding-agent-app/src/server.rs:268-276 -/
def withRequestId (response : Response) : Response :=
  if response.headers.containsKey "x-request-id" then response
  else response.setHeader "x-request-id" (.ofText requestId)

def contentSecurityPolicy : String :=
  "default-src 'self'; script-src 'self'; style-src 'self'; connect-src 'self'; " ++
  "img-src 'self' data:; object-src 'none'; base-uri 'none'; frame-ancestors 'none'; " ++
  "form-action 'self'"

/-- The response is a page. -/
def htmlResponse (headers : HeaderMap) : Bool :=
  match (headers.get "content-type").bind HeaderValue.toStr with
  | some text =>
    (trim (String.ofList (text.toList.takeWhile (· ≠ ';')))).toList.map Char.toLower =
      "text/html".toList
  | none => false

def corsHeaders : List String :=
  ["access-control-allow-credentials", "access-control-allow-headers",
    "access-control-allow-methods", "access-control-allow-origin",
    "access-control-allow-private-network", "access-control-expose-headers",
    "access-control-max-age"]

/-- mirrors crates/coding-agent-app/src/server.rs:124-162 -/
def applyResponsePolicy (response : Response) (noStoreRequest : Bool) : Response :=
  let html := htmlResponse response.headers
  let headers := response.headers.insert "content-security-policy" (.ofText contentSecurityPolicy)
  let headers := headers.insert "x-content-type-options" (.ofText "nosniff")
  let headers := headers.insert "referrer-policy" (.ofText "no-referrer")
  let headers :=
    if noStoreRequest || html then headers.insert "cache-control" (.ofText "no-store") else headers
  { response with headers := corsHeaders.foldl HeaderMap.remove headers }

def noStoreRequest : Bool := pathIsWithin parts.path "/api" || pathIsWithin parts.path "/_local"

/-- What the guard lets through. -/
def guarded : Program RuntimeCall RuntimeAnswer Response := do
  match ← call (RuntimeCall.api (.validateHost parts)) with
  | .error error => pure (.error error requestId)
  | .ok () => do
    let phase ← call RuntimeCall.phase
    if phase = .starting ∧ localStartupPath parts = false then
      pure (.error appStarting requestId)
    else runtimeRoutes env parts requestId

end

/-- The whole router: its guard around its routes.
mirrors crates/coding-agent-app/src/server.rs:97-122 -/
def runtimeRouter (env : RuntimeState) (parts : Parts) :
    Program RuntimeCall RuntimeAnswer Response := do
  let requestId ← chooseRuntimeRequestId parts.headers
  let response ← guarded env parts requestId
  pure (applyResponsePolicy (withRequestId requestId response) (noStoreRequest parts))

end CodingAgent.L4.App.Runtime
