import CodingAgent.L3Api.Router

/-!
# What the API router asks and answers (`coding-agent-api/src/router.rs`)

The router as a contract with its ports: which questions it asks after which
answers, and what it makes of them. `Authority` is what has to come before a
backend operation, `Refused` and `Succeeded` are where a response comes from.

* `ensures_handler`: every handler meets the contract.
* `apiRouter_ensures`: so does the router, in its envelope.
-/
namespace CodingAgent.L3.Api.Router
open CodingAgent.L1.Domain
open Http
open Program

abbrev Past : Type := List (Asked Call Answer)

/-! ## Requests and operations -/

/-- The operations behind `authorize_mutation`. -/
def Operation.mutates : Operation → Bool
  | .addRepository _ | .pickRepository | .createTask _ | .cancelTask _ | .retryTask _
  | .requestQuit => true
  | _ => false

/-- The body that was read is the document of this request. -/
def ReadBody {T : Type} (fromStr : String → Option T) (past : Past) (request : T) : Prop :=
  ∃ text, ⟨.body, some (.ok text)⟩ ∈ past ∧ fromStr text = some request

/-- The request is one for this operation, arguments included. -/
def Requests (parts : Parts) (past : Past) : Operation → Prop
  | .bootstrap => route parts = some .bootstrap
  | .listRepositories => route parts = some .repositories
  | .addRepository request => route parts = some .repositories ∧
    ReadBody AddRepositoryRequest.fromStr past request
  | .pickRepository => route parts = some .pickRepository
  | .listTasks repositoryId => route parts = some .tasks ∧ repositoryFilter parts = .ok repositoryId
  | .createTask request => route parts = some .tasks ∧
    ReadBody CreateTaskRequest.fromStr past request
  | .taskDetail id => route parts = some .task ∧ taskIdAt parts 3 = .ok id
  | .cancelTask id => route parts = some .cancelTask ∧ taskIdAt parts 3 = .ok id
  | .retryTask id => route parts = some .retryTask ∧ taskIdAt parts 3 = .ok id
  | .taskEvents id after => route parts = some .taskEvents ∧ taskIdAt parts 3 = .ok id ∧
    afterQuery parts = .ok after
  | .requestQuit => route parts = some .quit

/-- A mutation is asked for with `POST`, a read with `GET` or `HEAD`. -/
def MethodOf (parts : Parts) (mutation : Bool) : Prop :=
  if mutation then parts.method = .post else parts.method = .get ∨ parts.method = .head

/-- The check of an operation was passed by this session. -/
def Authorized (parts : Parts) (past : Past) (auth : AuthContext) (mutation : Bool) : Prop :=
  if mutation then ⟨.authorizeMutation parts, some (.ok auth)⟩ ∈ past
  else ⟨.authorizeRead parts, some (.ok auth)⟩ ∈ past

/-- No operation was asked for. -/
def Unasked (past : Past) : Prop := ∀ c ∈ past, ∀ auth operation, c.query ≠ .backend auth operation

/-- The guards are passed, and no operation was asked for. -/
structure Admitted (parts : Parts) (past : Past) : Prop where
  host : ⟨.validateHost parts, some (.ok ())⟩ ∈ past
  unasked : Unasked past

/-- What comes before an operation is asked for. -/
structure Authority (parts : Parts) (past : Past) (auth : AuthContext) (operation : Operation) :
    Prop extends Admitted parts past where
  method : MethodOf parts operation.mutates
  authorized : Authorized parts past auth operation.mutates
  requested : Requests parts past operation

/-- What comes before a launch token is exchanged. -/
structure ExchangeAuthority (parts : Parts) (past : Past) (token : String) : Prop
    extends Admitted parts past where
  method : parts.method = .post
  requested : route parts = some .exchangeSession ∧
    ReadBody SessionExchangeRequest.fromStr past { token }

/-! ## Where a response comes from -/

/-- The error a port answered with. -/
def errorOf : Asked Call Answer → Option ApiError
  | ⟨.validateHost _, some (.error error)⟩ => some error
  | ⟨.exchange _ _, some (.error error)⟩ => some error
  | ⟨.authorizeRead _, some (.error error)⟩ => some error
  | ⟨.authorizeMutation _, some (.error error)⟩ => some error
  | ⟨.backend _ _, some (.error error)⟩ => some error
  | _ => none

/-- An error a request ends with. -/
inductive Refused (parts : Parts) (past : Past) : ApiError → Prop
  | answered {before : Past} {c : Asked Call Answer} {error : ApiError} :
    past = before ++ [c] → errorOf c = some error → Refused parts past error
  | unreadable {before : Past} {body : Except Nat String} :
    past = before ++ [⟨.body, some body⟩] →
      Refused parts past (if body = .error 415 then unsupportedMediaType else invalidJson)
  | parameter {error : ApiError} : Unasked past →
    taskIdAt parts 3 = .error error ∨ repositoryFilter parts = .error error ∨
      afterQuery parts = .error error → Refused parts past error
  | untriggered {before : Past} {auth : AuthContext} :
    past = before ++ [⟨.backend auth .requestQuit, some (.ok false)⟩] →
      Refused parts past internalQuitError
  | panicked {before : Past} {query : Call} : past = before ++ [⟨query, none⟩] →
    Refused parts past internalPanicError
  | routeless : Unasked past → route parts = none → Refused parts past routeNotFound
  | methodless {r : Route} : Unasked past → route parts = some r → handler parts r = none →
    Refused parts past routeMethodNotAllowed

/-- A response of what a port answered. -/
inductive Succeeded (parts : Parts) (past : Past) : Response → Prop
  | operation {before : Past} {auth : AuthContext} {operation : Operation}
    {reply : operation.Reply} {response : Response} :
    past = before ++ [⟨.backend auth operation, some (.ok reply)⟩] →
      render operation reply = .ok response → Succeeded parts past response
  | exchange {before : Past} {token : String} {setCookie : HeaderValue} :
    past = before ++ [⟨.exchange parts token, some (.ok setCookie)⟩] →
      Succeeded parts past ((Response.empty 204).setHeader "set-cookie" setCookie)
  | events {before : Past} {auth : AuthContext} {after : Int} :
    past = before ++ [⟨.authorizeRead parts, some (.ok auth)⟩] → route parts = some .events →
      afterQuery parts = .ok after → Succeeded parts past (.events after)

/-! ## The contract of a handler -/

/-- The questions of the router. -/
def Permitted (parts : Parts) (past : Past) : Call → Prop
  | .backend auth operation => Authority parts past auth operation
  | .exchange parts' token => parts' = parts ∧ ExchangeAuthority parts past token
  | .validateHost parts' | .authorizeRead parts' | .authorizeMutation parts' => parts' = parts
  | .body | .newV4 => True

def handlerContract (parts : Parts) : Contract Call Answer (Except ApiError Response) where
  permitted := Permitted parts
  returned past
    | .ok response => Succeeded parts past response
    | .error error => Refused parts past error
  faulted past := ∃ before query, past = before ++ [⟨query, none⟩]

section
variable {parts : Parts} {past : Past}

@[simp] theorem handlerContract_ok (response : Response) :
    (handlerContract parts).returned past (.ok response) ↔ Succeeded parts past response := Iff.rfl

@[simp] theorem handlerContract_error (error : ApiError) :
    (handlerContract parts).returned past (.error error) ↔ Refused parts past error := Iff.rfl

theorem handlerContract_faulted (parts : Parts) (past : Past) (query : Call) :
    (handlerContract parts).faulted (past ++ [⟨query, none⟩]) := ⟨past, query, rfl⟩

/-- A further answer, of a question that is no operation. -/
theorem Admitted.snoc (h : Admitted parts past) {c : Asked Call Answer}
    (hc : ∀ auth operation, c.query ≠ .backend auth operation) : Admitted parts (past ++ [c]) where
  host := List.mem_append_left _ h.host
  unasked c' hc' := by
    rcases List.mem_append.1 hc' with hc' | hc'
    · exact h.unasked c' hc'
    · rw [List.mem_singleton.1 hc']
      exact hc

theorem Authorized.snoc {auth : AuthContext} {mutation : Bool}
    (h : Authorized parts past auth mutation) (c : Asked Call Answer) :
    Authorized parts (past ++ [c]) auth mutation := by
  unfold Authorized at h ⊢
  split
  · rename_i hm
    rw [if_pos hm] at h
    exact List.mem_append_left _ h
  · rename_i hm
    rw [if_neg hm] at h
    exact List.mem_append_left _ h

/-! ## The steps of a handler -/

variable {f : AuthContext → Handling Response}

theorem ensures_authorizeRead
    (h : ∀ auth, Ensures (handlerContract parts) (f auth).run
      (past ++ [⟨.authorizeRead parts, some (.ok auth)⟩])) :
    Ensures (handlerContract parts) (authorizeRead parts >>= f).run past := by
  rw [ensures_attempt]
  refine (ensures_call (Call.authorizeRead parts) ((handlerContract parts).andThen f)).2
    ⟨rfl, fun answer => ?_, handlerContract_faulted parts past _⟩
  cases answer with
  | error error => exact Refused.answered rfl rfl
  | ok auth => exact h auth

theorem ensures_authorizeMutation
    (h : ∀ auth, Ensures (handlerContract parts) (f auth).run
      (past ++ [⟨.authorizeMutation parts, some (.ok auth)⟩])) :
    Ensures (handlerContract parts) (authorizeMutation parts >>= f).run past := by
  rw [ensures_attempt]
  refine (ensures_call (Call.authorizeMutation parts) ((handlerContract parts).andThen f)).2
    ⟨rfl, fun answer => ?_, handlerContract_faulted parts past _⟩
  cases answer with
  | error error => exact Refused.answered rfl rfl
  | ok auth => exact h auth

theorem ensures_check {R : Type} {result : Except ApiError R} {f : R → Handling Response}
    (h : ∀ a, result = .ok a → Ensures (handlerContract parts) (f a).run past)
    (herror : ∀ error, result = .error error → Refused parts past error) :
    Ensures (handlerContract parts) (check result >>= f).run past := by
  rw [ensures_attempt]
  cases result with
  | error error => exact herror error rfl
  | ok a => exact h a rfl

theorem ensures_decode {T : Type} {fromStr : String → Option T} {f : T → Handling Response}
    (h : ∀ text request, fromStr text = some request →
      Ensures (handlerContract parts) (f request).run (past ++ [⟨.body, some (.ok text)⟩])) :
    Ensures (handlerContract parts) (decode fromStr >>= f).run past := by
  rw [ensures_attempt]
  unfold decode
  rw [ExceptT.run_mk, ensures_bind]
  refine ⟨trivial, fun answer => ?_⟩
  cases answer with
  | none => exact handlerContract_faulted parts past _
  | some body =>
    have hunreadable : Refused parts (past ++ [⟨.body, some body⟩])
        (if body = .error 415 then unsupportedMediaType else invalidJson) := .unreadable rfl
    show ((handlerContract parts).andThen f).returned _ (decodeJson fromStr body)
    cases body with
    | error status =>
      refine (andThen_error _).2 ?_
      by_cases hs : status = 415
      · subst hs
        exact hunreadable
      · rw [if_neg fun he => hs (Except.error.inj he)] at hunreadable
        rw [if_neg hs]
        exact hunreadable
    | ok text =>
      unfold decodeJson
      simp only
      split
      · rename_i request hrequest
        exact h text request hrequest
      · rw [if_neg fun he => by cases he] at hunreadable
        exact hunreadable

/-- The end of every handler that asks for an operation. -/
theorem ensures_operation {auth : AuthContext} {operation : Operation}
    (h : Authority parts past auth operation) :
    Ensures (handlerContract parts)
      (backend auth operation >>= fun reply => check (render operation reply)).run past := by
  rw [ensures_attempt]
  refine ⟨h, fun answer => ?_⟩
  match answer with
  | none => exact handlerContract_faulted parts past _
  | some (.error error) => exact Refused.answered rfl rfl
  | some (.ok reply) =>
    show Ensures (handlerContract parts) (pure (render operation reply)) _
    rw [ensures_pure]
    match hr : render operation reply with
    | .ok response => exact Succeeded.operation rfl hr
    | .error error =>
      -- only a quit without its trigger is an error
      cases operation with
      | requestQuit =>
        cases reply with
        | true => cases hr
        | false =>
          cases hr
          exact Refused.untriggered rfl
      | cancelTask id => cases reply <;> cases hr
      | pickRepository => cases reply <;> cases hr
      | _ => cases hr

/-! ## Handlers -/

theorem methodOf_get (h : (if parts.method = .head then .get else parts.method) = Method.get) :
    MethodOf parts false := by
  show parts.method = .get ∨ parts.method = .head
  by_cases hm : parts.method = .head
  · exact .inr hm
  · rw [if_neg hm] at h
    exact .inl h

theorem methodOf_post (h : (if parts.method = .head then .get else parts.method) = Method.post) :
    MethodOf parts true := by
  show parts.method = .post
  by_cases hm : parts.method = .head
  · rw [if_pos hm] at h
    cases h
  · rwa [if_neg hm] at h

theorem Admitted.authority {auth : AuthContext} {operation : Operation} (h : Admitted parts past)
    (hmethod : MethodOf parts operation.mutates)
    (hauthorized : Authorized parts past auth operation.mutates)
    (hrequested : Requests parts past operation) : Authority parts past auth operation :=
  { h with method := hmethod, authorized := hauthorized, requested := hrequested }

theorem mem_last (past : Past) (c : Asked Call Answer) : c ∈ past ++ [c] := by simp

/-- The answer of a check. -/
theorem Admitted.authorizedRead (h : Admitted parts past) (auth : AuthContext) :
    Admitted parts (past ++ [⟨.authorizeRead parts, some (.ok auth)⟩]) :=
  h.snoc fun _ _ he => by cases he

theorem Admitted.authorizedMutation (h : Admitted parts past) (auth : AuthContext) :
    Admitted parts (past ++ [⟨.authorizeMutation parts, some (.ok auth)⟩]) :=
  h.snoc fun _ _ he => by cases he

theorem Admitted.readBody (h : Admitted parts past) (text : String) :
    Admitted parts (past ++ [⟨.body, some (.ok text)⟩]) :=
  h.snoc fun _ _ he => by cases he

/-- A read without arguments. -/
theorem ensures_read {operation : Operation} (had : Admitted parts past)
    (hmethod : MethodOf parts false) (hreads : operation.mutates = false)
    (hrequested : ∀ past, Requests parts past operation) :
    Ensures (handlerContract parts) (do
      let auth ← authorizeRead parts
      let reply ← backend auth operation
      check (render operation reply) : Handling Response).run past := by
  refine ensures_authorizeRead fun auth => ensures_operation ?_
  refine (had.authorizedRead auth).authority (hreads ▸ hmethod) ?_ (hrequested _)
  rw [hreads]
  exact mem_last _ _

/-- A mutation without a body, its argument in the path if it has one. -/
theorem ensures_mutation (operation : Operation) (had : Admitted parts past)
    (hmethod : MethodOf parts true) (hmutates : operation.mutates = true)
    (hrequested : ∀ past, Requests parts past operation) (auth : AuthContext) :
    Ensures (handlerContract parts)
      (backend auth operation >>= fun reply => check (render operation reply)).run
      (past ++ [⟨.authorizeMutation parts, some (.ok auth)⟩]) := by
  refine ensures_operation ((had.authorizedMutation auth).authority (hmutates ▸ hmethod) ?_
    (hrequested _))
  rw [hmutates]
  exact mem_last _ _

/-- A mutation of the document in the body. -/
theorem ensures_document {T : Type} {fromStr : String → Option T} {operation : T → Operation}
    (had : Admitted parts past) (hmethod : MethodOf parts true)
    (hmutates : ∀ request, (operation request).mutates = true)
    (hrequested : ∀ past request, ReadBody fromStr past request →
      Requests parts past (operation request)) :
    Ensures (handlerContract parts) (do
      let auth ← authorizeMutation parts
      let input ← decode fromStr
      let reply ← backend auth (operation input)
      check (render (operation input) reply) : Handling Response).run past := by
  refine ensures_authorizeMutation fun auth => ensures_decode fun text request hread =>
    ensures_operation ?_
  refine ((had.authorizedMutation auth).readBody text).authority (hmutates request ▸ hmethod) ?_
    (hrequested _ request ⟨text, mem_last _ _, hread⟩)
  rw [hmutates]
  have hauthorized : Authorized parts (past ++ [_]) auth true := mem_last past _
  exact hauthorized.snoc _

/-- **Every handler meets the contract.** -/
theorem ensures_handler {r : Route} {h : Handling Response} (hroute : route parts = some r)
    (hh : handler parts r = some h) (had : Admitted parts past) :
    Ensures (handlerContract parts) h.run past := by
  unfold handler at hh
  split at hh
  case h_1 hmethod =>
    cases hh
    refine ensures_decode fun text request hread => ?_
    rw [ensures_attempt]
    refine (ensures_call (Call.exchange parts request.token) _).2
      ⟨⟨rfl, { had.readBody text with
        method := methodOf_post hmethod
        requested := ⟨hroute, text, mem_last _ _, hread⟩ }⟩, fun answer => ?_,
        handlerContract_faulted parts _ _⟩
    cases answer with
    | error error => exact Refused.answered rfl rfl
    | ok setCookie => exact Succeeded.exchange rfl
  case h_2 hmethod =>
    cases hh
    exact ensures_read had (methodOf_get hmethod) rfl fun _ => hroute
  case h_3 hmethod =>
    cases hh
    exact ensures_read had (methodOf_get hmethod) rfl fun _ => hroute
  case h_4 hmethod =>
    cases hh
    exact ensures_document had (methodOf_post hmethod) (fun _ => rfl) fun _ _ hread => ⟨hroute, hread⟩
  case h_5 hmethod =>
    cases hh
    exact ensures_authorizeMutation
      (ensures_mutation .pickRepository had (methodOf_post hmethod) rfl fun _ => hroute)
  case h_6 hmethod =>
    cases hh
    refine ensures_authorizeRead fun auth => ensures_check (fun repositoryId hfilter => ?_)
      fun error he => .parameter (had.authorizedRead auth).unasked (.inr (.inl he))
    exact ensures_operation ((had.authorizedRead auth).authority (methodOf_get hmethod)
      (mem_last _ _) ⟨hroute, hfilter⟩)
  case h_7 hmethod =>
    cases hh
    exact ensures_document had (methodOf_post hmethod) (fun _ => rfl) fun _ _ hread => ⟨hroute, hread⟩
  case h_8 hmethod =>
    cases hh
    refine ensures_authorizeRead fun auth => ensures_check (fun id hid => ?_)
      fun error he => .parameter (had.authorizedRead auth).unasked (.inl he)
    exact ensures_operation ((had.authorizedRead auth).authority (methodOf_get hmethod)
      (mem_last _ _) ⟨hroute, hid⟩)
  case h_9 hmethod =>
    cases hh
    refine ensures_authorizeMutation fun auth => ensures_check (fun id hid => ?_)
      fun error he => .parameter (had.authorizedMutation auth).unasked (.inl he)
    exact ensures_mutation (.cancelTask id) had (methodOf_post hmethod) rfl (fun _ => ⟨hroute, hid⟩) auth
  case h_10 hmethod =>
    cases hh
    refine ensures_authorizeMutation fun auth => ensures_check (fun id hid => ?_)
      fun error he => .parameter (had.authorizedMutation auth).unasked (.inl he)
    exact ensures_mutation (.retryTask id) had (methodOf_post hmethod) rfl (fun _ => ⟨hroute, hid⟩) auth
  case h_11 hmethod =>
    cases hh
    refine ensures_authorizeRead fun auth => ensures_check (fun id hid => ?_)
      fun error he => .parameter (had.authorizedRead auth).unasked (.inl he)
    refine ensures_check (fun after hafter => ?_)
      fun error he => .parameter (had.authorizedRead auth).unasked (.inr (.inr he))
    exact ensures_operation ((had.authorizedRead auth).authority (methodOf_get hmethod)
      (mem_last _ _) ⟨hroute, hid, hafter⟩)
  case h_12 hmethod =>
    cases hh
    refine ensures_authorizeRead fun auth => ensures_check (fun after hafter => ?_)
      fun error he => .parameter (had.authorizedRead auth).unasked (.inr (.inr he))
    exact Succeeded.events rfl hroute hafter
  case h_13 hmethod =>
    cases hh
    exact ensures_authorizeMutation
      (ensures_mutation .requestQuit had (methodOf_post hmethod) rfl fun _ => hroute)
  case h_14 => cases hh

end

/-! ## The router -/

/-- The id of a request: the one it came with, or one that was drawn. -/
def RequestIdOf (headers : HeaderMap) (past : Past) (id : String) : Prop :=
  canonicalRequestId headers = some id ∨
    canonicalRequestId headers = none ∧ ∃ uuid, ⟨.newV4, some uuid⟩ ∈ past ∧ id = uuid.text

theorem RequestIdOf.mono {headers : HeaderMap} {past later : Past} {id : String}
    (h : RequestIdOf headers past id) (hle : past <+: later) : RequestIdOf headers later id :=
  h.imp_right fun ⟨hnone, uuid, hmem, hid⟩ => ⟨hnone, uuid, hle.subset hmem, hid⟩

/-- A response before it gets its request id: what a port answered, or an
error that names the request. -/
def Outcome (parts : Parts) (past : Past) (id : String) (response : Response) : Prop :=
  Succeeded parts past response ∨
    ∃ error, Refused parts past error ∧ response = .error error id

def apiContract (parts : Parts) : Contract Call Answer Response where
  permitted := Permitted parts
  returned past response := ∃ id outcome, RequestIdOf parts.headers past id ∧
    Outcome parts past id outcome ∧ response = outcome.setHeader "x-request-id" (.ofText id)
  faulted past := past = [⟨.newV4, none⟩]

section
variable {parts : Parts} {past : Past} {requestId : String}

/-- The contract of what runs inside the envelope. -/
def innerContract (parts : Parts) (requestId : String) : Contract Call Answer Response where
  permitted := Permitted parts
  returned past := Outcome parts past requestId
  faulted past := ∃ before query, past = before ++ [⟨query, none⟩]

theorem ensures_dispatch (had : Admitted parts past) :
    Ensures (innerContract parts requestId) (dispatch parts requestId) past := by
  unfold dispatch
  split
  · rename_i hroute
    exact .inr ⟨_, .routeless had.unasked hroute, rfl⟩
  · rename_i r hroute
    split
    · rename_i hnone
      exact .inr ⟨_, .methodless had.unasked hroute hnone, rfl⟩
    · rename_i h hh
      rw [ensures_map]
      refine (ensures_handler hroute hh had).mono (fun _ _ => id) (fun past result hr => ?_)
        fun _ => id
      cases result with
      | ok response => exact .inl hr
      | error error => exact .inr ⟨error, hr, rfl⟩

theorem ensures_hostGuard (hpast : Unasked past) :
    Ensures (innerContract parts requestId) (hostGuard parts requestId (dispatch parts requestId)) past := by
  unfold hostGuard
  rw [ensures_bind]
  refine (ensures_call (Call.validateHost parts) _).2 ⟨rfl, fun answer => ?_, ⟨past, _, rfl⟩⟩
  cases answer with
  | error error => exact .inr ⟨error, .answered rfl rfl, rfl⟩
  | ok _ =>
    refine ensures_dispatch ⟨mem_last _ _, fun c hc auth operation => ?_⟩
    rcases List.mem_append.1 hc with hc | hc
    · exact hpast c hc auth operation
    · rw [List.mem_singleton.1 hc]
      simp

/-- The envelope once the request has its id. -/
theorem ensures_envelope (hid : RequestIdOf parts.headers past requestId)
    (hpast : Unasked past) :
    Ensures (apiContract parts) (do
      let response ← (hostGuard parts requestId (dispatch parts requestId)).recover
        (pure (.error internalPanicError requestId))
      pure (response.setHeader "x-request-id" (.ofText requestId))) past := by
  rw [ensures_bind, ensures_recover]
  refine (ensures_hostGuard hpast).extend.mono (fun _ _ => id) ?_ ?_
  · intro later response h
    exact ⟨requestId, response, hid.mono h.1, h.2, rfl⟩
  · intro later h
    obtain ⟨hle, before, query, hlast⟩ := h
    exact ⟨requestId, _, hid.mono hle, .inr ⟨_, .panicked hlast, rfl⟩, rfl⟩

theorem ensures_chooseRequestId {f : String → Program Call Answer Response}
    (h : ∀ requestId past, RequestIdOf parts.headers past requestId →
      Unasked past →
      Ensures (apiContract parts) (f requestId) past) :
    Ensures (apiContract parts) (chooseRequestId parts.headers >>= f) [] := by
  rw [ensures_bind]
  unfold chooseRequestId
  split
  · rename_i requestId hcanonical
    exact h requestId [] (.inl hcanonical) fun c hc => by cases hc
  · rename_i hnone
    rw [ensures_bind]
    refine ⟨trivial, fun answer => ?_⟩
    cases answer with
    | none => rfl
    | some uuid =>
      refine h uuid.text _ (.inr ⟨hnone, uuid, mem_last [] _, rfl⟩) fun c hc => ?_
      rw [List.mem_singleton.1 hc]
      simp

/-- **The router meets its contract**, whatever the ports answer. -/
theorem apiRouter_ensures (parts : Parts) : Ensures (apiContract parts) (apiRouter parts) [] :=
  ensures_chooseRequestId fun _ _ hid hpast => ensures_envelope hid hpast

end

end CodingAgent.L3.Api.Router
