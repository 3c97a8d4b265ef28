import CodingAgent.Core.Lts
import CodingAgent.Core.Serde
import CodingAgent.Core.Utf8
import CodingAgent.L3Api.Http

/-!
# The API client (`web/src/api/client.ts`)

What the methods of `ApiClient` send, and the client as a machine: its methods
are called at any time and its responses arrive in any order, so that many
calls are under way at once. A launch token is taken out of the URL fragment
when the client is built.

* `Sound`, `client_sound`: what is sent, over all runs: the launch token once,
  mutations with the CSRF token of a bootstrap, nothing after a 401.
-/
namespace CodingAgent.L5.Web.Client
open L3.Api.Http (Method)

/-! ## Requests -/

/-- A character that stands for itself in `encodeURIComponent`. -/
def isUnescaped (c : Char) : Bool :=
  ('a' ≤ c && c ≤ 'z') || ('A' ≤ c && c ≤ 'Z') || ('0' ≤ c && c ≤ '9') ||
    "-_.!~*'()".toList.contains c

/-- A character that stands for itself in a `URLSearchParams`. -/
def isFormSafe (c : Char) : Bool :=
  ('a' ≤ c && c ≤ 'z') || ('A' ≤ c && c ≤ 'Z') || ('0' ≤ c && c ≤ '9') || "*-._".toList.contains c

def escapeByte (b : UInt8) : List Char :=
  ['%', (Nat.digitChar (b.toNat / 16)).toUpper, (Nat.digitChar (b.toNat % 16)).toUpper]

/-- Every character but the kept ones by its bytes. -/
def escapeText (keep : Char → Bool) (cs : List Char) : List Char :=
  cs.flatMap fun c => if keep c then [c] else (Utf8.encode [c]).flatMap escapeByte

def encodeURIComponent (text : String) : List Char := escapeText isUnescaped text.toList

/-- `new URLSearchParams({ name: value }).toString()` -/
def searchParams (name : String) (value : List Char) : List Char :=
  let encode (cs : List Char) :=
    cs.flatMap fun c => if c = ' ' then ['+'] else escapeText isFormSafe [c]
  encode name.toList ++ '=' :: encode value

theorem escapeText_of_kept {keep : Char → Bool} {cs : List Char} (h : ∀ c ∈ cs, keep c = true) :
    escapeText keep cs = cs := by
  induction cs with
  | nil => rfl
  | cons c cs ih =>
    rw [escapeText, List.flatMap_cons, if_pos (h c List.mem_cons_self)]
    exact congrArg (c :: ·) (ih fun d hd => h d (List.mem_cons_of_mem _ hd))

/-- mirrors web/src/api/types.ts -/
structure CreateTaskRequest where
  clientRequestId : String
  repositoryId : String
  prompt : String
  deriving DecidableEq, Repr

/-- The methods that send one request. `exchange` is the first request of
`initialize`. -/
inductive ClientCall where
  | exchange (token : String)
  | bootstrap
  | listRepositories
  | addRepository (path : String)
  | pickRepository
  | listTasks (repositoryId : Option String)
  | createTask (request : CreateTaskRequest)
  | taskDetail (taskId : String)
  | cancelTask (taskId : String)
  | retryTask (taskId : String)
  | taskEvents (taskId : String) (after : Option Nat)
  | quit
  deriving DecidableEq, Repr

namespace ClientCall

def tasksPath (taskId : String) : List Char := "/api/tasks/".toList ++ encodeURIComponent taskId

/-- The URL of a request, with its query. -/
def url : ClientCall → List Char
  | .exchange _ => "/api/session/exchange".toList
  | .bootstrap => "/api/bootstrap".toList
  | .listRepositories | .addRepository _ => "/api/repositories".toList
  | .pickRepository => "/api/repositories/pick".toList
  | .listTasks none | .createTask _ => "/api/tasks".toList
  | .listTasks (some repositoryId) =>
    "/api/tasks?".toList ++ searchParams "repository_id" repositoryId.toList
  | .taskDetail taskId => tasksPath taskId
  | .cancelTask taskId => tasksPath taskId ++ "/cancel".toList
  | .retryTask taskId => tasksPath taskId ++ "/retry".toList
  | .taskEvents taskId none => tasksPath taskId ++ "/events".toList
  | .taskEvents taskId (some after) =>
    tasksPath taskId ++ "/events?".toList ++ searchParams "after" (Nat.toDigits 10 after)
  | .quit => "/api/app/quit".toList

def method : ClientCall → Method
  | .exchange _ | .addRepository _ | .pickRepository | .createTask _ | .cancelTask _ | .retryTask _
  | .quit => .post
  | _ => .get

/-- The option `mutation`, which asks for the CSRF header. -/
def mutation : ClientCall → Bool
  | .addRepository _ | .pickRepository | .createTask _ | .cancelTask _ | .retryTask _ | .quit => true
  | _ => false

/-- The document `JSON.stringify` writes. -/
def body : ClientCall → Option Json
  | .exchange token => some (.object [("token", .string token)])
  | .addRepository path => some (.object [("path", .string path)])
  | .createTask request => some (.object [("client_request_id", .string request.clientRequestId),
      ("repository_id", .string request.repositoryId), ("prompt", .string request.prompt)])
  | _ => none

end ClientCall

/-! ## The launch token -/

def hexDigitValue (b : UInt8) : Option UInt8 :=
  if 48 ≤ b ∧ b ≤ 57 then some (b - 48)
  else if 65 ≤ b ∧ b ≤ 70 then some (b - 55)
  else if 97 ≤ b ∧ b ≤ 102 then some (b - 87)
  else none

/-- An escape that is malformed stays as it is. -/
def percentDecode : List UInt8 → List UInt8
  | [] => []
  | b :: rest =>
    if b ≠ 37 then b :: percentDecode rest
    else
      match rest with
      | high :: low :: rest' =>
        match hexDigitValue high, hexDigitValue low with
        | some high, some low => (high * 16 + low) :: percentDecode rest'
        | _, _ => b :: percentDecode (high :: low :: rest')
      | rest' => b :: percentDecode rest'

def decodeComponent (cs : List Char) : List Char :=
  Utf8.lossy (percentDecode (Utf8.encode (cs.map fun c => if c = '+' then ' ' else c)))

/-- The pairs of `new URLSearchParams(text)`. -/
def searchPairs (text : List Char) : List (List Char × List Char) :=
  let text := if text.head? = some '?' then text.tail else text
  ((text.splitOn '&').filter (· ≠ [])).map fun pair =>
    (decodeComponent (pair.takeWhile (· ≠ '=')), decodeComponent (pair.dropWhile (· ≠ '=')).tail)

/-- mirrors web/src/api/client.ts:315-318 -/
def readLaunchToken (hash : String) : Option String :=
  if hash = "" then none
  else
    let text := if hash.toList.head? = some '#' then hash.toList.tail else hash.toList
    ((searchPairs text).find? fun pair => pair.1 = "token".toList).map fun pair =>
      String.ofList pair.2

/-! ## Replies -/

/-- mirrors web/src/api/types.ts, ApiErrorResponse -/
structure ApiErrorPayload where
  code : String
  message : String
  retryable : Bool
  requestId : String
  details : List (String × Json)

/-- A body, as it is read. -/
inductive ReplyBody where
  | json (value : Json)
  | notJson
  /-- the connection is lost -/
  | unread

/-- What a request is settled with. In a document that was parsed a name
stands once. -/
inductive Reply where
  | unreachable
  | response (status : Nat) (requestId : Option String) (body : ReplyBody)

/-- The fields of both error classes.
mirrors web/src/api/client.ts:34-72 -/
structure ClientApiError where
  status : Nat
  code : String
  message : String
  retryable : Bool
  requestId : Option String
  details : List (String × Json)

/-- What a method rejects with. -/
inductive ClientError where
  | api (error : ClientApiError)
  | sessionExpired (error : ClientApiError)
  /-- an error of the platform -/
  | platform

def ClientError.isSessionExpired : ClientError → Bool
  | .sessionExpired _ => true
  | _ => false

/-- mirrors web/src/api/client.ts:347-356 -/
def apiErrorPayload (value : Json) : Option ApiErrorPayload :=
  match value with
  | .object members =>
    match Serde.member "code" members, Serde.member "message" members,
      Serde.member "retryable" members, Serde.member "request_id" members,
      Serde.member "details" members with
    | some (.string code), some (.string message), some (.bool retryable), some (.string requestId),
      some (.object details) => some { code, message, retryable, requestId, details }
    | _, _, _, _, _ => none
  | _ => none

/-- mirrors web/src/api/client.ts:337-345 -/
def readApiError : ReplyBody → Option ApiErrorPayload
  | .json value => apiErrorPayload value
  | .notJson | .unread => none

def httpCode (status : Nat) : String := "HTTP_" ++ toString status

def httpMessage (status : Nat) : String := "request failed with HTTP " ++ toString status

/-- The fields of the error of a response.
mirrors web/src/api/client.ts:288-294 -/
def responseError (status : Nat) (requestId : Option String) (body : ReplyBody) : ClientApiError :=
  match readApiError body with
  | some payload =>
    { status
      code := payload.code
      message := payload.message
      retryable := payload.retryable
      requestId := some payload.requestId
      details := payload.details }
  | none =>
    { status
      code := httpCode status
      message := httpMessage status
      retryable := false
      requestId
      details := [] }

def networkError : ClientApiError where
  status := 0
  code := "NETWORK_ERROR"
  message := "the network request failed"
  retryable := true
  requestId := none
  details := []

def notInitialized : ClientApiError where
  status := 0
  code := "SESSION_NOT_INITIALIZED"
  message := "bootstrap must complete before a mutation"
  retryable := false
  requestId := none
  details := []

def invalidResponse (status : Nat) (requestId : Option String) : ClientApiError where
  status := status
  code := "INVALID_RESPONSE"
  message := "the server returned invalid JSON"
  retryable := false
  requestId := requestId
  details := []

/-- `response.ok` -/
def isOk (status : Nat) : Bool := 200 ≤ status && status < 300

/-- What `#request` makes of what it is settled with; a 401 is the end of the
session.
mirrors web/src/api/client.ts:264-345 -/
def settled : Reply → Except ClientError Json
  | .unreachable => .error (.api networkError)
  | .response status requestId body =>
    if isOk status = false then
      let error := responseError status requestId body
      .error (if status = 401 then .sessionExpired error else .api error)
    else if status = 204 then .ok .null
    else
      match body with
      | .json value => .ok value
      | .notJson => .error (.api (invalidResponse status requestId))
      | .unread => .error .platform

/-! ## The client -/

/-- A value of the platform: a document, or `undefined`. -/
abbrev JsValue : Type := Option Json

def null : JsValue := some .null

/-- `value === null` -/
def isNull : JsValue → Bool
  | some .null => true
  | _ => false

/-- `document.name`; `null` has no properties. -/
def property (name : String) : Json → Except ClientError JsValue
  | .null => .error .platform
  | .object members => .ok (Serde.member name members)
  | _ => .ok none

/-- What the client is waiting for, or is about to do. `initialization` is the
one a request is part of. -/
inductive Activity where
  | fetching (call : ClientCall) (initialization : Option Nat)
  /-- the launch token was accepted -/
  | exchanged (initialization : Nat)
  /-- the request of `bootstrap` has returned -/
  | bootstrapped (document : Json) (initialization : Option Nat)
  /-- `initialize` is rejected -/
  | rejected (initialization : Nat) (error : ClientError)

def Activity.initialization : Activity → Option Nat
  | .fetching _ initialization | .bootstrapped _ initialization => initialization
  | .exchanged initialization | .rejected initialization _ => some initialization

/-- What was sent and received, in order. -/
inductive Traffic where
  | sent (call : ClientCall) (csrf : Option JsValue)
  | received (call : ClientCall) (reply : Reply)

/-- mirrors web/src/api/client.ts:92-98 -/
structure ClientState where
  launchToken : Option String
  csrfToken : JsValue
  sessionExpired : Option ClientApiError
  initialization : Option Nat
  /-- the initializations so far -/
  initializations : Nat
  activities : List Activity
  traffic : List Traffic

/-- A client built where the URL carries this launch token.
mirrors web/src/api/client.ts:100-112 -/
def ClientState.new (launchToken : Option String) : ClientState where
  launchToken := launchToken
  csrfToken := null
  sessionExpired := none
  initialization := none
  initializations := 0
  activities := []
  traffic := []

inductive ClientLabel where
  /-- `initialize` is called -/
  | init
  | call (call : ClientCall)
  | settle (index : Nat) (reply : Reply)
  | resume (index : Nat)

namespace ClientState

/-- The call is rejected; an initialization has its `catch` still to run. -/
def reject (s : ClientState) (initialization : Option Nat) (error : ClientError) : ClientState :=
  match initialization with
  | none => s
  | some initialization => { s with activities := s.activities ++ [.rejected initialization error] }

/-- `#request`, up to its `fetch`.
mirrors web/src/api/client.ts:236-266 -/
def request (s : ClientState) (call : ClientCall) (initialization : Option Nat) : ClientState :=
  match s.sessionExpired with
  | some error => s.reject initialization (.sessionExpired error)
  | none =>
    if call.mutation = true ∧ isNull s.csrfToken = true then s.reject initialization (.api notInitialized)
    else
      { s with
        activities := s.activities ++ [.fetching call initialization]
        traffic := s.traffic ++ [.sent call (if call.mutation then some s.csrfToken else none)] }

/-- mirrors web/src/api/client.ts:118-142 -/
def initializeOnce (s : ClientState) : ClientState :=
  match s.initialization with
  | some _ => s
  | none =>
    let started :=
      { s with
        launchToken := none
        initialization := some s.initializations
        initializations := s.initializations + 1 }
    match s.launchToken with
    | some token => started.request (.exchange token) (some s.initializations)
    | none => started.request .bootstrap (some s.initializations)

/-- A request is settled.
mirrors web/src/api/client.ts:267-312 -/
def settle (s : ClientState) (call : ClientCall) (initialization : Option Nat) (reply : Reply) :
    ClientState :=
  let s := { s with traffic := s.traffic ++ [.received call reply] }
  match settled reply with
  | .error (.sessionExpired error) =>
    { s with sessionExpired := some error, csrfToken := null }.reject initialization
      (.sessionExpired error)
  | .error error => s.reject initialization error
  | .ok document =>
    match call, initialization with
    | .exchange _, some initialization =>
      { s with activities := s.activities ++ [.exchanged initialization] }
    | .bootstrap, _ =>
      { s with activities := s.activities ++ [.bootstrapped document initialization] }
    | _, _ => s

/-- What follows an `await`.
mirrors web/src/api/client.ts:121-150 -/
def resume (s : ClientState) : Activity → Option ClientState
  | .fetching _ _ => none
  | .exchanged initialization => some (s.request .bootstrap (some initialization))
  | .bootstrapped document initialization =>
    match property "csrf_token" document with
    | .error error => some (s.reject initialization error)
    | .ok csrfToken => some { s with csrfToken }
  | .rejected initialization error =>
    if s.initialization = some initialization ∧ error.isSessionExpired = false then
      some { s with initialization := none }
    else some s

/-- One step; `none` where the label is not enabled. -/
def next (s : ClientState) : ClientLabel → Option ClientState
  | .init => some s.initializeOnce
  | .call (.exchange _) => none
  | .call call => some (s.request call none)
  | .settle index reply =>
    match s.activities[index]? with
    | some (.fetching call initialization) =>
      some ({ s with activities := s.activities.eraseIdx index }.settle call initialization reply)
    | _ => none
  | .resume index =>
    s.activities[index]?.bind fun activity =>
      { s with activities := s.activities.eraseIdx index }.resume activity

end ClientState

def client (launchToken : Option String) : LTS ClientState ClientLabel :=
  LTS.ofFn (fun s => s = .new launchToken) ClientState.next

/-! ## What is sent -/

/-- A bootstrap returned this document. -/
def Bootstraps (traffic : List Traffic) (document : Json) : Prop :=
  ∃ reply, .received .bootstrap reply ∈ traffic ∧ settled reply = .ok document

/-- The reply ends the session. -/
def Expires (reply : Reply) : Prop := ∃ error, settled reply = .error (.sessionExpired error)

def NoExchange (traffic : List Traffic) : Prop := ∀ token csrf, .sent (.exchange token) csrf ∉ traffic

/-- A request and what came before it. -/
structure SentSoundly (launchToken : Option String) (before : List Traffic) (call : ClientCall)
    (csrf : Option JsValue) : Prop where
  /-- the launch token is sent once -/
  exchange : ∀ token, call = .exchange token → launchToken = some token ∧ NoExchange before
  /-- a mutation has the CSRF token of a bootstrap -/
  mutation : call.mutation = true → ∃ value document, csrf = some value ∧ isNull value = false ∧
    Bootstraps before document ∧ property "csrf_token" document = .ok value
  /-- the session is not over -/
  alive : ∀ other reply, .received other reply ∈ before → ¬Expires reply

def Sound (launchToken : Option String) (traffic : List Traffic) : Prop :=
  ∀ before call csrf after, traffic = before ++ .sent call csrf :: after →
    SentSoundly launchToken before call csrf

/-- The initializations that are under way. -/
def underWay (activities : List Activity) : List Nat := activities.filterMap Activity.initialization

/-- None is under way, or the current one is. -/
def Single (initialization : Option Nat) (activities : List Activity) : Prop :=
  underWay activities = [] ∨ ∃ i, initialization = some i ∧ underWay activities = [i]

/-- An activity of this initialization can be added. -/
def Vacant (current : Option Nat) (activities : List Activity) (initialization : Option Nat) : Prop :=
  (initialization = none ∧ Single current activities) ∨
    (initialization = current ∧ underWay activities = [])

structure ClientInv (launchToken : Option String) (s : ClientState) : Prop where
  sound : Sound launchToken s.traffic
  token : ∀ token, s.launchToken = some token → launchToken = some token ∧ NoExchange s.traffic
  csrf : isNull s.csrfToken = false →
    ∃ document, Bootstraps s.traffic document ∧ property "csrf_token" document = .ok s.csrfToken
  alive : s.sessionExpired = none → ∀ call reply, .received call reply ∈ s.traffic → ¬Expires reply
  read : ∀ document initialization, .bootstrapped document initialization ∈ s.activities →
    Bootstraps s.traffic document
  single : Single s.initialization s.activities

section
variable {launchToken : Option String} {traffic : List Traffic} {activities : List Activity}
  {current initialization : Option Nat} {activity : Activity} {s : ClientState}

theorem Bootstraps.snoc {document : Json} (h : Bootstraps traffic document) (e : Traffic) :
    Bootstraps (traffic ++ [e]) document := by
  obtain ⟨reply, hmem, hsettled⟩ := h
  exact ⟨reply, List.mem_append_left _ hmem, hsettled⟩

theorem Sound.received (h : Sound launchToken traffic) (call : ClientCall) (reply : Reply) :
    Sound launchToken (traffic ++ [.received call reply]) := by
  intro before call' csrf after heq
  rcases List.eq_nil_or_concat after with rfl | ⟨init, e, rfl⟩
  · have := (List.append_inj' heq rfl).2
    cases List.cons.inj this |>.1
  · rw [List.concat_eq_append, ← List.cons_append, ← List.append_assoc] at heq
    exact h before call' csrf init (List.append_inj' heq rfl).1

theorem Sound.sent {call : ClientCall} {csrf : Option JsValue} (h : Sound launchToken traffic)
    (hsent : SentSoundly launchToken traffic call csrf) :
    Sound launchToken (traffic ++ [.sent call csrf]) := by
  intro before call' csrf' after heq
  rcases List.eq_nil_or_concat after with rfl | ⟨init, e, rfl⟩
  · obtain ⟨rfl, hlast⟩ := List.append_inj' heq rfl
    obtain ⟨rfl, rfl⟩ := Traffic.sent.inj (List.cons.inj hlast).1
    exact hsent
  · rw [List.concat_eq_append, ← List.cons_append, ← List.append_assoc] at heq
    exact h before call' csrf' init (List.append_inj' heq rfl).1

@[simp] theorem underWay_append (a b : List Activity) :
    underWay (a ++ b) = underWay a ++ underWay b := by
  unfold underWay
  rw [List.filterMap_append]

theorem Vacant.push (h : Vacant current activities activity.initialization) :
    Single current (activities ++ [activity]) := by
  have hlast : underWay [activity] = activity.initialization.toList := by
    unfold underWay
    cases ha : activity.initialization <;> simp [ha]
  unfold Single
  rw [underWay_append, hlast]
  rcases h with ⟨hnone, h⟩ | ⟨hcurrent, h⟩
  · rw [hnone, Option.toList_none, List.append_nil]
    exact h
  · rw [h, List.nil_append, hcurrent]
    cases current with
    | none => exact .inl rfl
    | some i => exact .inr ⟨i, rfl, rfl⟩

/-- Where an activity ends, its initialization can go on. -/
theorem Single.erase {index : Nat} (h : Single current activities)
    (hget : activities[index]? = some activity) :
    Vacant current (activities.eraseIdx index) activity.initialization := by
  obtain ⟨hlt, rfl⟩ := List.getElem?_eq_some_iff.1 hget
  have hwhole : underWay activities = underWay (activities.take index) ++
      (activities[index].initialization.toList ++ underWay (activities.drop (index + 1))) := by
    have hone : underWay [activities[index]] = activities[index].initialization.toList := by
      unfold underWay
      cases ha : activities[index].initialization <;> simp [ha]
    conv_lhs => rw [← List.take_append_drop index activities, List.drop_eq_getElem_cons hlt]
    rw [underWay_append, ← hone, ← underWay_append [activities[index]]]
    rfl
  have herased : underWay (activities.eraseIdx index) =
      underWay (activities.take index) ++ underWay (activities.drop (index + 1)) := by
    rw [List.eraseIdx_eq_take_drop_succ, underWay_append]
  cases hi : activities[index].initialization with
  | none =>
    rw [hi, Option.toList_none, List.nil_append, ← herased] at hwhole
    unfold Single at h
    rw [hwhole] at h
    exact .inl ⟨rfl, h⟩
  | some i =>
    rw [hi, Option.toList_some] at hwhole
    rcases h with h | ⟨j, hj, h⟩
    · rw [h] at hwhole
      simp at hwhole
    · rw [h] at hwhole
      have hlengths := congrArg List.length hwhole
      simp only [List.length_append, List.length_cons, List.length_nil] at hlengths
      have hbefore : underWay (activities.take index) = [] := List.length_eq_zero_iff.1 (by omega)
      have hafter : underWay (activities.drop (index + 1)) = [] :=
        List.length_eq_zero_iff.1 (by omega)
      rw [hbefore, hafter, List.nil_append, List.append_nil] at hwhole
      refine .inr ⟨?_, by rw [herased, hbefore, hafter, List.append_nil]⟩
      rw [hj, (List.cons.inj hwhole).1]

theorem ClientInv.new : ClientInv launchToken (.new launchToken) where
  sound before call csrf after h := by
    simp [ClientState.new] at h
  token token h := ⟨h, by simp [NoExchange, ClientState.new]⟩
  csrf h := by
    exact absurd h (by simp [ClientState.new, null, isNull])
  alive _ := by simp [ClientState.new]
  read := by simp [ClientState.new]
  single := .inl rfl

theorem ClientInv.push (h : ClientInv launchToken s)
    (hvacant : Vacant s.initialization s.activities activity.initialization)
    (hread : ∀ document initialization, activity = .bootstrapped document initialization →
      Bootstraps s.traffic document) :
    ClientInv launchToken { s with activities := s.activities ++ [activity] } where
  sound := h.sound
  token := h.token
  csrf := h.csrf
  alive := h.alive
  read document other hmem := by
    rcases List.mem_append.1 hmem with hmem | hmem
    · exact h.read document other hmem
    · exact hread document other (List.mem_singleton.1 hmem).symm
  single := hvacant.push

theorem ClientInv.reject (h : ClientInv launchToken s) {error : ClientError}
    (hvacant : Vacant s.initialization s.activities initialization) :
    ClientInv launchToken (s.reject initialization error) := by
  unfold ClientState.reject
  cases initialization with
  | none => exact h
  | some i => exact h.push hvacant fun document other heq => by cases heq

/-- A request that is sent, or rejected. -/
theorem ClientInv.request (h : ClientInv launchToken s) {call : ClientCall}
    (hvacant : Vacant s.initialization s.activities initialization)
    (hexchange : ∀ token, call = .exchange token → s.launchToken = none ∧
      launchToken = some token ∧ NoExchange s.traffic) :
    ClientInv launchToken (s.request call initialization) := by
  unfold ClientState.request
  split
  · exact h.reject hvacant
  · rename_i hexpired
    split
    · exact h.reject hvacant
    · rename_i hcsrf
      have hsound : SentSoundly launchToken s.traffic call
          (if call.mutation = true then some s.csrfToken else none) := by
        refine ⟨fun token heq => (hexchange token heq).2, fun hmutation => ?_, h.alive hexpired⟩
        have hnull : isNull s.csrfToken = false := by
          by_contra hne
          exact hcsrf ⟨hmutation, Bool.eq_true_of_not_eq_false hne⟩
        obtain ⟨document, hdocument, hproperty⟩ := h.csrf hnull
        exact ⟨s.csrfToken, document, if_pos hmutation, hnull, hdocument, hproperty⟩
      constructor
      · exact h.sound.sent hsound
      · intro token htoken
        obtain ⟨hlaunch, hnone⟩ := h.token token htoken
        refine ⟨hlaunch, fun other csrf hmem => ?_⟩
        rcases List.mem_append.1 hmem with hmem | hmem
        · exact hnone other csrf hmem
        · obtain ⟨rfl, -⟩ := Traffic.sent.inj (List.mem_singleton.1 hmem)
          rw [(hexchange other rfl).1] at htoken
          cases htoken
      · intro hnull
        obtain ⟨document, hdocument, hproperty⟩ := h.csrf hnull
        exact ⟨document, hdocument.snoc _, hproperty⟩
      · intro hnone other reply hmem
        refine h.alive hnone other reply ?_
        simpa using hmem
      · intro document other hmem
        refine (h.read document other ?_).snoc _
        simpa using hmem
      · exact Vacant.push hvacant

theorem ClientInv.initializeOnce (h : ClientInv launchToken s) :
    ClientInv launchToken s.initializeOnce := by
  unfold ClientState.initializeOnce
  split
  · exact h
  · rename_i hnone
    have hidle : underWay s.activities = [] := by
      rcases h.single with hidle | ⟨i, hi, -⟩
      · exact hidle
      · rw [hnone] at hi
        cases hi
    have hstarted : ClientInv launchToken
        { s with
          launchToken := none
          initialization := some s.initializations
          initializations := s.initializations + 1 } := by
      refine { h with token := fun token htoken => ?_, single := .inl hidle }
      cases htoken
    dsimp only
    split
    · rename_i token htoken
      refine hstarted.request (.inr ⟨rfl, hidle⟩) fun other heq => ⟨rfl, ?_⟩
      obtain rfl := ClientCall.exchange.inj heq
      exact h.token _ htoken
    · refine hstarted.request (.inr ⟨rfl, hidle⟩) fun other heq => ?_
      cases heq

/-- A reply, with what it makes of the state. -/
theorem ClientInv.received (h : ClientInv launchToken s) {call : ClientCall} {reply : Reply}
    {csrfToken : JsValue} {sessionExpired : Option ClientApiError}
    (hcsrf : isNull csrfToken = true ∨ csrfToken = s.csrfToken)
    (halive : sessionExpired = none → s.sessionExpired = none ∧ ¬Expires reply) :
    ClientInv launchToken
      { s with csrfToken, sessionExpired, traffic := s.traffic ++ [.received call reply] } where
  sound := h.sound.received call reply
  token token htoken := by
    obtain ⟨hlaunch, hnone⟩ := h.token token htoken
    refine ⟨hlaunch, fun other csrf hmem => hnone other csrf ?_⟩
    simpa using hmem
  csrf hnull := by
    rcases hcsrf with hcsrf | rfl
    · rw [hcsrf] at hnull
      cases hnull
    · obtain ⟨document, hdocument, hproperty⟩ := h.csrf hnull
      exact ⟨document, hdocument.snoc _, hproperty⟩
  alive hnone other reply' hmem := by
    obtain ⟨hbefore, hreply⟩ := halive hnone
    rcases List.mem_append.1 hmem with hmem | hmem
    · exact h.alive hbefore other reply' hmem
    · obtain ⟨-, rfl⟩ := Traffic.received.inj (List.mem_singleton.1 hmem)
      exact hreply
  read document other hmem := (h.read document other hmem).snoc _
  single := h.single

theorem ClientInv.settle (h : ClientInv launchToken s) {call : ClientCall} {reply : Reply}
    (hvacant : Vacant s.initialization s.activities initialization) :
    ClientInv launchToken (s.settle call initialization reply) := by
  have hkept : ¬Expires reply → ClientInv launchToken
      { s with traffic := s.traffic ++ [.received call reply] } :=
    fun hreply => h.received (.inr rfl) fun hnone => ⟨hnone, hreply⟩
  unfold ClientState.settle
  dsimp only
  split
  · -- the session is over
    refine ClientInv.reject ?_ hvacant
    refine h.received (.inl rfl) fun hnone => ?_
    cases hnone
  · rename_i error hexpired hsettled
    refine ClientInv.reject (hkept ?_) hvacant
    rintro ⟨other, hother⟩
    rw [hsettled] at hother
    exact hexpired other (Except.error.inj hother)
  · rename_i document hsettled
    have hreply : ¬Expires reply := by
      rintro ⟨other, hother⟩
      rw [hsettled] at hother
      cases hother
    split
    · refine (hkept hreply).push hvacant fun document other heq => ?_
      cases heq
    · refine (hkept hreply).push hvacant fun document' other heq => ?_
      obtain ⟨rfl, -⟩ := Activity.bootstrapped.inj heq
      exact ⟨reply, List.mem_append_right _ (List.mem_singleton_self _), hsettled⟩
    · exact hkept hreply

/-- An activity that is taken out. -/
theorem ClientInv.erase (h : ClientInv launchToken s) {index : Nat}
    (hsingle : Single s.initialization (s.activities.eraseIdx index)) :
    ClientInv launchToken { s with activities := s.activities.eraseIdx index } :=
  { h with
    read := fun document other hmem => h.read document other (List.mem_of_mem_eraseIdx hmem)
    single := hsingle }

theorem Vacant.single (h : Vacant current activities initialization) :
    Single current activities := h.elim (fun h => h.2) fun h => .inl h.2

theorem ClientInv.resume {s' : ClientState} (h : ClientInv launchToken s)
    (hvacant : Vacant s.initialization s.activities activity.initialization)
    (hread : ∀ document initialization, activity = .bootstrapped document initialization →
      Bootstraps s.traffic document) (hnext : s.resume activity = some s') :
    ClientInv launchToken s' := by
  unfold ClientState.resume at hnext
  split at hnext
  · cases hnext
  · obtain rfl := Option.some.inj hnext
    refine h.request hvacant fun token heq => ?_
    cases heq
  · rename_i document other
    split at hnext
    · obtain rfl := Option.some.inj hnext
      exact h.reject hvacant
    · rename_i csrfToken hproperty
      obtain rfl := Option.some.inj hnext
      exact { h with csrf := fun _ => ⟨document, hread document other rfl, hproperty⟩ }
  · rename_i i error
    split at hnext
    · rename_i hcurrent
      obtain rfl := Option.some.inj hnext
      refine { h with single := .inl ?_ }
      rcases hvacant with ⟨hnone, -⟩ | ⟨-, hidle⟩
      · cases hnone
      · exact hidle
    · obtain rfl := Option.some.inj hnext
      exact h

theorem clientInv_step {s' : ClientState} {label : ClientLabel} (h : ClientInv launchToken s)
    (hnext : s.next label = some s') : ClientInv launchToken s' := by
  unfold ClientState.next at hnext
  split at hnext
  · obtain rfl := Option.some.inj hnext
    exact h.initializeOnce
  · cases hnext
  · rename_i call hcall
    obtain rfl := Option.some.inj hnext
    refine h.request (.inl ⟨rfl, h.single⟩) fun token heq => ?_
    exact absurd heq (hcall token)
  · split at hnext
    · rename_i index reply call other hget
      obtain rfl := Option.some.inj hnext
      have hvacant := h.single.erase hget
      exact (h.erase hvacant.single).settle hvacant
    · cases hnext
  · obtain ⟨activity, hget, hnext⟩ := Option.bind_eq_some_iff.1 hnext
    have hvacant := h.single.erase hget
    refine (h.erase hvacant.single).resume hvacant (fun document other heq => ?_) hnext
    exact h.read document other (heq ▸ List.mem_of_getElem? hget)

theorem clientInv_inductive (launchToken : Option String) :
    (client launchToken).Inductive (ClientInv launchToken) where
  init s h := by
    obtain rfl : s = .new launchToken := h
    exact ClientInv.new
  step _ _ _ h hnext := clientInv_step h hnext

/-- **What the client sends is sound, over all its runs.** The launch token in
one request, mutations with the CSRF token of a bootstrap, nothing once a 401
was read; and no two initializations are under way. -/
theorem client_sound (h : (client launchToken).Reachable s) :
    Sound launchToken s.traffic ∧ (underWay s.activities).length ≤ 1 := by
  have hinv := (clientInv_inductive launchToken).reachable s h
  refine ⟨hinv.sound, ?_⟩
  rcases hinv.single with hidle | ⟨i, -, hone⟩
  · rw [hidle]
    exact Nat.zero_le _
  · rw [hone]
    exact Nat.le_refl _

end

/-- A launch, a bootstrap, and a quit with its token. -/
def sampleRun : List ClientLabel :=
  [.init, .settle 0 (.response 204 none .notJson), .resume 0,
    .settle 0 (.response 200 none (.json (.object [("csrf_token", .string "csrf")]))), .resume 0,
    .call .quit]

theorem client_sound_quit : ∃ (s : ClientState) (before : List Traffic),
    s.traffic = before ++ [.sent .quit (some (some (.string "csrf")))] ∧
    Sound (some "launch") s.traffic ∧ (underWay s.activities).length ≤ 1 := by
  have hrun : ∃ s, LTS.exec ClientState.next (.new (some "launch")) sampleRun = some s ∧
      s.traffic = [.sent (.exchange "launch") none,
        .received (.exchange "launch") (.response 204 none .notJson), .sent .bootstrap none,
        .received .bootstrap (.response 200 none (.json (.object [("csrf_token", .string "csrf")])))] ++
        [.sent .quit (some (some (.string "csrf")))] := ⟨_, rfl, rfl⟩
  obtain ⟨s, hexec, htraffic⟩ := hrun
  exact ⟨s, _, htraffic, client_sound (LTS.reachable_of_exec rfl hexec)⟩

end CodingAgent.L5.Web.Client
