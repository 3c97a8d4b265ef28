import CodingAgent.L4App.RuntimeRouter

/-!
# What the router of the process asks and answers (`coding-agent-app/src/server.rs`)

The contract of the API router, inside the guard of the process: nothing but
the local endpoints is reached before the process is ready, and every response
leaves with one request id, its policy headers and no others of CORS.

* `Policy`, `applyResponsePolicy_policy`: the headers of a response.
* `runtimeRouter_ensures`: the contract of the whole router.
* `backend_guarded`, `response_sound`: what it says of a run.
-/
namespace CodingAgent.L4.App.Runtime
open CodingAgent.L1.Domain CodingAgent.L3.Api.Http CodingAgent.L3.Api.Router Program
open SingleInstance (StartupPhase)

/-! ## The headers of a response -/

theorem getAll_removeAll_mem {names : List String} {headers : HeaderMap} {name : String}
    (h : name ∈ names ∨ headers.getAll name = []) :
    (names.foldl HeaderMap.remove headers).getAll name = [] := by
  induction names generalizing headers with
  | nil =>
    rcases h with h | h
    · cases h
    · exact h
  | cons other names ih =>
    refine ih ?_
    by_cases heq : name = other
    · subst heq
      exact .inr HeaderMap.getAll_remove
    · rw [HeaderMap.getAll_remove_ne heq]
      exact h.imp_left fun hmem => (List.mem_cons.1 hmem).resolve_left heq

theorem getAll_removeAll {names : List String} {headers : HeaderMap} {name : String}
    (h : name ∉ names) : (names.foldl HeaderMap.remove headers).getAll name = headers.getAll name := by
  induction names generalizing headers with
  | nil => rfl
  | cons other names ih =>
    rw [List.mem_cons, not_or] at h
    rw [List.foldl_cons, ih h.2, HeaderMap.getAll_remove_ne h.1]

/-- The headers the policy writes. -/
def policyHeaders : List String :=
  ["content-security-policy", "x-content-type-options", "referrer-policy", "cache-control"]

/-- The headers a response leaves with. -/
structure Policy (noStoreRequest : Bool) (headers : HeaderMap) : Prop where
  contentSecurityPolicy :
    headers.getAll "content-security-policy" = [.ofText contentSecurityPolicy]
  contentTypeOptions : headers.getAll "x-content-type-options" = [.ofText "nosniff"]
  referrerPolicy : headers.getAll "referrer-policy" = [.ofText "no-referrer"]
  noStore : noStoreRequest = true ∨ htmlResponse headers = true →
    headers.getAll "cache-control" = [.ofText "no-store"]
  noCors : ∀ name ∈ corsHeaders, headers.getAll name = []

section
variable {response : Response} {noStoreRequest : Bool} {name : String}

/-- The policy leaves every other header as it is. -/
theorem applyResponsePolicy_other (hpolicy : name ∉ policyHeaders) (hcors : name ∉ corsHeaders) :
    (applyResponsePolicy response noStoreRequest).headers.getAll name =
      response.headers.getAll name := by
  simp only [policyHeaders, List.mem_cons, List.not_mem_nil, or_false, not_or] at hpolicy
  obtain ⟨hcsp, hoptions, hreferrer, hcache⟩ := hpolicy
  unfold applyResponsePolicy
  simp only
  rw [getAll_removeAll hcors]
  split
  · rw [HeaderMap.getAll_insert_ne hcache, HeaderMap.getAll_insert_ne hreferrer,
      HeaderMap.getAll_insert_ne hoptions, HeaderMap.getAll_insert_ne hcsp]
  · rw [HeaderMap.getAll_insert_ne hreferrer, HeaderMap.getAll_insert_ne hoptions,
      HeaderMap.getAll_insert_ne hcsp]

/-- Whether a response is a page is seen after the policy too. -/
theorem htmlResponse_applyResponsePolicy :
    htmlResponse (applyResponsePolicy response noStoreRequest).headers =
      htmlResponse response.headers := by
  unfold htmlResponse HeaderMap.get
  rw [applyResponsePolicy_other (by decide) (by decide)]

theorem applyResponsePolicy_policy :
    Policy noStoreRequest (applyResponsePolicy response noStoreRequest).headers where
  contentSecurityPolicy := by
    unfold applyResponsePolicy
    simp only
    rw [getAll_removeAll (by decide)]
    split
    · rw [HeaderMap.getAll_insert_ne (by decide), HeaderMap.getAll_insert_ne (by decide),
        HeaderMap.getAll_insert_ne (by decide), HeaderMap.getAll_insert]
    · rw [HeaderMap.getAll_insert_ne (by decide), HeaderMap.getAll_insert_ne (by decide),
        HeaderMap.getAll_insert]
  contentTypeOptions := by
    unfold applyResponsePolicy
    simp only
    rw [getAll_removeAll (by decide)]
    split
    · rw [HeaderMap.getAll_insert_ne (by decide), HeaderMap.getAll_insert_ne (by decide),
        HeaderMap.getAll_insert]
    · rw [HeaderMap.getAll_insert_ne (by decide), HeaderMap.getAll_insert]
  referrerPolicy := by
    unfold applyResponsePolicy
    simp only
    rw [getAll_removeAll (by decide)]
    split
    · rw [HeaderMap.getAll_insert_ne (by decide), HeaderMap.getAll_insert]
    · rw [HeaderMap.getAll_insert]
  noStore h := by
    rw [htmlResponse_applyResponsePolicy] at h
    unfold applyResponsePolicy
    simp only
    rw [getAll_removeAll (by decide), if_pos (by simpa using h), HeaderMap.getAll_insert]
  noCors name h := getAll_removeAll_mem (.inl h)

end

/-! ## The API inside the process -/

/-- The questions of the API among those of the process. -/
def apiPast (past : RuntimePast) : Past :=
  past.filterMap fun
    | ⟨.api call, answer⟩ => some ⟨call, answer⟩
    | _ => none

@[simp] theorem apiPast_append (past rest : RuntimePast) :
    apiPast (past ++ rest) = apiPast past ++ apiPast rest := by
  simp [apiPast]

@[simp] theorem apiPast_asked (rest : Past) : apiPast (rest.map apiEmbedding.asked) = rest := by
  induction rest with
  | nil => rfl
  | cons c rest ih =>
    have hask : apiPast (c :: rest |>.map apiEmbedding.asked) =
        ⟨c.query, c.answer.map id⟩ :: apiPast (rest.map apiEmbedding.asked) := rfl
    rw [hask, ih, Option.map_id, id]

/-! What the API asks and answers stays so after questions of the process. -/

section
variable {parts : Parts} {before rest : Past}

theorem readBody_prepend {T : Type} {fromStr : String → Option T} {request : T}
    (h : ReadBody fromStr rest request) : ReadBody fromStr (before ++ rest) request := by
  obtain ⟨text, hmem, hread⟩ := h
  exact ⟨text, List.mem_append_right _ hmem, hread⟩

theorem unasked_prepend (hbefore : Unasked before) (h : Unasked rest) : Unasked (before ++ rest) :=
  fun c hc => (List.mem_append.1 hc).elim (hbefore c) (h c)

theorem admitted_prepend (hbefore : Unasked before) (h : Admitted parts rest) :
    Admitted parts (before ++ rest) where
  host := List.mem_append_right _ h.host
  unasked := unasked_prepend hbefore h.unasked

theorem authority_prepend {auth : AuthContext} {operation : Operation} (hbefore : Unasked before)
    (h : Authority parts rest auth operation) : Authority parts (before ++ rest) auth operation where
  toAdmitted := admitted_prepend hbefore h.toAdmitted
  method := h.method
  authorized := by
    have hauthorized := h.authorized
    unfold Authorized at hauthorized ⊢
    split at hauthorized
    · rename_i hm
      rw [if_pos hm]
      exact List.mem_append_right _ hauthorized
    · rename_i hm
      rw [if_neg hm]
      exact List.mem_append_right _ hauthorized
  requested := by
    have hrequested := h.requested
    cases operation with
    | addRepository request => exact ⟨hrequested.1, readBody_prepend hrequested.2⟩
    | createTask request => exact ⟨hrequested.1, readBody_prepend hrequested.2⟩
    | _ => exact hrequested

theorem outcome_prepend {id : String} {response : Response} (hbefore : Unasked before)
    (h : Outcome parts rest id response) : Outcome parts (before ++ rest) id response := by
  have happend : ∀ {last : Past} {c : Asked Call Answer}, rest = last ++ [c] →
      before ++ rest = (before ++ last) ++ [c] := by
    rintro last c rfl
    rw [List.append_assoc]
  rcases h with h | ⟨error, h, rfl⟩
  · cases h with
    | operation hlast hrender => exact .inl (.operation (happend hlast) hrender)
    | exchange hlast => exact .inl (.exchange (happend hlast))
    | events hlast hroute hafter => exact .inl (.events (happend hlast) hroute hafter)
  · refine .inr ⟨_, ?_, rfl⟩
    cases h with
    | answered hlast herror => exact .answered (happend hlast) herror
    | unreadable hlast => exact .unreadable (happend hlast)
    | parameter hunasked herror => exact .parameter (unasked_prepend hbefore hunasked) herror
    | untriggered hlast => exact .untriggered (happend hlast)
    | panicked hlast => exact .panicked (happend hlast)
    | routeless hunasked hroute => exact .routeless (unasked_prepend hbefore hunasked) hroute
    | methodless hunasked hroute hnone =>
      exact .methodless (unasked_prepend hbefore hunasked) hroute hnone

end

/-! ## The contract -/

/-- What comes before anything is asked of the API, or a launch token issued. -/
structure Entered (parts : Parts) (past : RuntimePast) : Prop where
  host : ⟨.api (.validateHost parts), some (.ok ())⟩ ∈ past
  ready : ⟨.phase, some .ready⟩ ∈ past

/-- What comes before a launch token is issued. -/
structure IssueAuthority (parts : Parts) (past : RuntimePast) : Prop extends Entered parts past where
  path : parts.path = localReopenPath
  method : parts.method = .post
  launcher : ⟨.authorizeLauncher parts, some (.ok ())⟩ ∈ past
  unissued : ∀ c ∈ past, c.query ≠ .issueLaunchToken

/-- The questions of the router. -/
def RuntimePermitted (parts : Parts) (past : RuntimePast) : RuntimeCall → Prop
  | .api (.backend auth operation) =>
    Entered parts past ∧ Authority parts (apiPast past) auth operation
  | .api (.exchange parts' token) =>
    Entered parts past ∧ parts' = parts ∧ ExchangeAuthority parts (apiPast past) token
  | .api (.validateHost parts') | .api (.authorizeRead parts') | .api (.authorizeMutation parts')
  | .authorizeLauncher parts' => parts' = parts
  | .issueLaunchToken => IssueAuthority parts past
  | .api .body | .api .newV4 | .phase | .nowUtc => True

/-- What the process answers a request with that it does not pass to the API. -/
inductive LocalOutcome (env : RuntimeState) (parts : Parts) (past : RuntimePast) (id : String) :
    Response → Prop
  | refused {before : RuntimePast} {error : ApiError} :
    past = before ++ [⟨.api (.validateHost parts), some (.error error)⟩] →
      LocalOutcome env parts past id (.error error id)
  | starting {before : RuntimePast} : past = before ++ [⟨.phase, some .starting⟩] →
    parts.path ≠ localReadyPath → LocalOutcome env parts past id (.error appStarting id)
  | launcher {before : RuntimePast} {error : ApiError} :
    past = before ++ [⟨.authorizeLauncher parts, some (.error error)⟩] →
      LocalOutcome env parts past id (.error error id)
  | ready {before : RuntimePast} {phase : StartupPhase} :
    past = before ++ [⟨.authorizeLauncher parts, some (.ok ())⟩, ⟨.phase, some phase⟩] →
      parts.path = localReadyPath →
      LocalOutcome env parts past id (.json 200 (.object [("instance_id", .string env.instanceId.text),
        ("state", .string (phaseDto phase))]))
  | reopened {before : RuntimePast} {now : Int} {expiresAt : UtcTimestamp} {token : String} :
    past = before ++ [⟨.nowUtc, some now⟩, ⟨.issueLaunchToken, some (some token)⟩] →
      reopenDeadline now = .ok expiresAt → parts.path = localReopenPath →
      LocalOutcome env parts past id (.json 200 (.object [("url", .string (reopenUrl env token)),
        ("expires_at", .string expiresAt.text)]))
  | clock {before : RuntimePast} {now : Int} {error : DomainError} :
    past = before ++ [⟨.nowUtc, some now⟩] → reopenDeadline now = .error error →
      LocalOutcome env parts past id (.error internalError id)
  | random {before : RuntimePast} : past = before ++ [⟨.issueLaunchToken, some none⟩] →
    LocalOutcome env parts past id (.error randomUnavailable id)
  | method : Unasked (apiPast past) → localStartupPath parts = true →
    LocalOutcome env parts past id (.empty 405)
  | file : Unasked (apiPast past) → route parts = none → localStartupPath parts = false →
    LocalOutcome env parts past id (serveStatic env parts)

/-- A response before the guard adds its headers. -/
inductive RoutesOutcome (env : RuntimeState) (parts : Parts) (past : RuntimePast) (id : String) :
    Response → Prop
  | api {apiId : String} {outcome : Response} :
    RequestIdOf parts.headers (apiPast past) apiId → Outcome parts (apiPast past) apiId outcome →
      RoutesOutcome env parts past id (outcome.setHeader "x-request-id" (.ofText apiId))
  | own {outcome : Response} : RequestIdOf parts.headers (apiPast past) id →
    LocalOutcome env parts past id outcome → RoutesOutcome env parts past id outcome

/-- A response: where it comes from, its id and its headers. -/
structure Answered (env : RuntimeState) (parts : Parts) (past : RuntimePast) (id : String)
    (outcome response : Response) : Prop where
  requestId : RequestIdOf parts.headers (apiPast past) id
  source : Outcome parts (apiPast past) id outcome ∨ LocalOutcome env parts past id outcome
  status : response.status = outcome.status
  body : response.body = outcome.body
  named : response.headers.getAll "x-request-id" = [.ofText id]
  policy : Policy (noStoreRequest parts) response.headers
  /-- every other header is that of the handler -/
  others : ∀ name, name ∉ policyHeaders → name ∉ corsHeaders → name ≠ "x-request-id" →
    response.headers.getAll name = outcome.headers.getAll name

def runtimeContract (env : RuntimeState) (parts : Parts) :
    Contract RuntimeCall RuntimeAnswer Response where
  permitted := RuntimePermitted parts
  returned past response := ∃ id outcome, Answered env parts past id outcome response
  faulted past := ∃ before query, past = before ++ [⟨query, none⟩]

/-! ## The routes -/

def routesContract (env : RuntimeState) (parts : Parts) (id : String) :
    Contract RuntimeCall RuntimeAnswer Response where
  permitted := RuntimePermitted parts
  returned past := RoutesOutcome env parts past id
  faulted past := ∃ before query, past = before ++ [⟨query, none⟩]

section
variable {env : RuntimeState} {parts : Parts} {past : RuntimePast} {requestId : String}

theorem requestIdOf_append {headers : HeaderMap}
    (h : RequestIdOf headers (apiPast past) requestId) (rest : RuntimePast) :
    RequestIdOf headers (apiPast (past ++ rest)) requestId := by
  rw [apiPast_append]
  exact h.mono (List.prefix_append _ _)

theorem Entered.append (h : Entered parts past) (rest : RuntimePast) :
    Entered parts (past ++ rest) :=
  ⟨List.mem_append_left _ h.host, List.mem_append_left _ h.ready⟩

theorem ensures_localReady (hid : RequestIdOf parts.headers (apiPast past) requestId)
    (hpath : parts.path = localReadyPath) :
    Ensures (routesContract env parts requestId) (localReady env parts requestId) past := by
  unfold localReady
  rw [ensures_bind]
  refine (ensures_call (RuntimeCall.authorizeLauncher parts) _).2
    ⟨rfl, fun answer => ?_, past, _, rfl⟩
  cases answer with
  | error error => exact .own (requestIdOf_append hid _) (.launcher rfl)
  | ok _ =>
    show Ensures _ (call RuntimeCall.phase >>= _) _
    rw [ensures_bind]
    refine (ensures_call RuntimeCall.phase _).2 ⟨trivial, fun phase => ?_, _, _, rfl⟩
    exact .own (requestIdOf_append (requestIdOf_append hid _) _) 
      (.ready (List.append_assoc _ [_] [_]) hpath)

/-- A launch token is issued after the launcher was authorized and the phase
was read again. -/
theorem ensures_localReopen (hid : RequestIdOf parts.headers (apiPast past) requestId)
    (hhost : ⟨.api (.validateHost parts), some (.ok ())⟩ ∈ past)
    (hunissued : ∀ c ∈ past, c.query ≠ .issueLaunchToken)
    (hpath : parts.path = localReopenPath) (hmethod : parts.method = .post) :
    Ensures (routesContract env parts requestId) (localReopen env parts requestId) past := by
  have hnotReady : parts.path ≠ localReadyPath := by
    rw [hpath]
    decide
  unfold localReopen
  rw [ensures_bind]
  refine (ensures_call (RuntimeCall.authorizeLauncher parts) _).2
    ⟨rfl, fun answer => ?_, past, _, rfl⟩
  cases answer with
  | error error => exact .own (requestIdOf_append hid _) (.launcher rfl)
  | ok _ =>
    show Ensures _ (call RuntimeCall.phase >>= _) _
    rw [ensures_bind]
    refine (ensures_call RuntimeCall.phase _).2 ⟨trivial, fun phase => ?_, _, _, rfl⟩
    have hid := requestIdOf_append (requestIdOf_append hid
      [⟨.authorizeLauncher parts, some (.ok ())⟩]) [⟨.phase, some phase⟩]
    cases phase with
    | starting => exact .own hid (.starting rfl hnotReady)
    | ready =>
      show Ensures _ (call RuntimeCall.nowUtc >>= _) _
      rw [ensures_bind]
      refine (ensures_call RuntimeCall.nowUtc _).2 ⟨trivial, fun now => ?_, _, _, rfl⟩
      have hid := requestIdOf_append hid [⟨.nowUtc, some now⟩]
      dsimp only
      split
      · rename_i error hdeadline
        exact .own hid (.clock rfl hdeadline)
      · rename_i expiresAt hdeadline
        rw [ensures_bind]
        refine (ensures_call RuntimeCall.issueLaunchToken _).2
          ⟨⟨⟨?_, ?_⟩, hpath, hmethod, ?_, ?_⟩, fun token => ?_, _, _, rfl⟩
        · simp [hhost]
        · simp
        · simp
        · intro c hc
          simp only [List.append_assoc, List.mem_append, List.mem_cons, List.not_mem_nil,
            or_false] at hc
          rcases hc with hc | rfl | rfl | rfl
          · exact hunissued c hc
          · simp
          · simp
          · simp
        · have hid := requestIdOf_append hid [⟨.issueLaunchToken, some token⟩]
          cases token with
          | none => exact .own hid (.random rfl)
          | some token => exact .own hid (.reopened (List.append_assoc _ [_] [_]) hdeadline hpath)

/-- The API behind the guard. -/
theorem ensures_api (henter : Entered parts past)
    (hunasked : Unasked (apiPast past)) :
    Ensures (routesContract env parts requestId) ((apiRouter parts).lift apiEmbedding) past := by
  rw [ensures_lift]
  refine (apiRouter_ensures parts).mono (fun rest query h => ?_) (fun rest response h => ?_)
    fun rest h => ?_
  · show RuntimePermitted parts (past ++ rest.map apiEmbedding.asked) (.api query)
    have hpast : apiPast (past ++ rest.map apiEmbedding.asked) = apiPast past ++ rest := by simp
    cases query with
    | backend auth operation =>
      refine ⟨henter.append _, ?_⟩
      rw [hpast]
      exact authority_prepend hunasked h
    | exchange parts' token =>
      refine ⟨henter.append _, h.1, ?_⟩
      rw [hpast]
      exact { admitted_prepend hunasked h.2.toAdmitted with
        method := h.2.method
        requested := ⟨h.2.requested.1, readBody_prepend h.2.requested.2⟩ }
    | validateHost parts' => exact h
    | authorizeRead parts' => exact h
    | authorizeMutation parts' => exact h
    | body => trivial
    | newV4 => trivial
  · obtain ⟨id, outcome, hid, hsource, rfl⟩ := h
    refine .api ?_ ?_
    · rw [apiPast_append, apiPast_asked]
      exact hid.imp_right fun ⟨hnone, uuid, hmem, heq⟩ =>
        ⟨hnone, uuid, List.mem_append_right _ hmem, heq⟩
    · rw [apiPast_append, apiPast_asked]
      exact outcome_prepend hunasked hsource
  · obtain rfl : rest = [⟨.newV4, none⟩] := h
    exact ⟨past, .api .newV4, rfl⟩

theorem ensures_runtimeRoutes (hid : RequestIdOf parts.headers (apiPast past) requestId)
    (hhost : ⟨.api (.validateHost parts), some (.ok ())⟩ ∈ past)
    (hunissued : ∀ c ∈ past, c.query ≠ .issueLaunchToken)
    (hunasked : Unasked (apiPast past))
    (hready : localStartupPath parts = false → ⟨.phase, some .ready⟩ ∈ past) :
    Ensures (routesContract env parts requestId) (runtimeRoutes env parts requestId) past := by
  unfold runtimeRoutes
  split
  · rename_i hpath
    split
    · exact ensures_localReady hid hpath
    · exact .own hid (.method hunasked (by simp [localStartupPath, hpath]))
  · rename_i hnotReady
    split
    · rename_i hpath
      split
      · rename_i hmethod
        exact ensures_localReopen hid hhost hunissued hpath hmethod
      · exact .own hid (.method hunasked (by simp [localStartupPath, hpath]))
    · rename_i hnotReopen
      have hpath : localStartupPath parts = false := by
        simp [localStartupPath, hnotReady, hnotReopen]
      split
      · exact ensures_api ⟨hhost, hready hpath⟩ hunasked
      · rename_i hroute
        exact .own hid (.file hunasked hroute hpath)

/-- The guard, for a request that has its id and has asked for nothing else. -/
theorem ensures_guarded (hid : RequestIdOf parts.headers (apiPast past) requestId)
    (hunissued : ∀ c ∈ past, c.query ≠ .issueLaunchToken)
    (hunasked : Unasked (apiPast past)) :
    Ensures (routesContract env parts requestId) (guarded env parts requestId) past := by
  unfold guarded
  rw [ensures_bind]
  refine (ensures_call (RuntimeCall.api (.validateHost parts)) _).2
    ⟨rfl, fun answer => ?_, past, _, rfl⟩
  cases answer with
  | error error => exact .own (requestIdOf_append hid _) (.refused rfl)
  | ok _ =>
    show Ensures _ (call RuntimeCall.phase >>= _) _
    rw [ensures_bind]
    refine (ensures_call RuntimeCall.phase _).2 ⟨trivial, fun phase => ?_, _, _, rfl⟩
    have hid := requestIdOf_append (requestIdOf_append hid
      [⟨.api (.validateHost parts), some (.ok ())⟩]) [⟨.phase, some phase⟩]
    dsimp only
    split
    · rename_i hstarting
      obtain ⟨hphase, hpath⟩ := hstarting
      subst hphase
      refine .own hid (.starting rfl fun hready => ?_)
      simp [localStartupPath, hready] at hpath
    · rename_i hstarted
      refine ensures_runtimeRoutes hid (by simp) ?_ ?_ fun hpath => ?_
      · intro c hc
        simp only [List.append_assoc, List.mem_append, List.mem_cons, List.not_mem_nil,
          or_false] at hc
        rcases hc with hc | rfl | rfl
        · exact hunissued c hc
        · simp
        · simp
      · intro c hc
        rw [apiPast_append, apiPast_append, List.append_assoc, List.mem_append] at hc
        rcases hc with hc | hc
        · exact hunasked c hc
        · obtain rfl : c = ⟨.validateHost parts, some (.ok ())⟩ := List.mem_singleton.1 hc
          simp
      · cases phase with
        | starting => exact absurd ⟨rfl, hpath⟩ hstarted
        | ready => simp

/-! ## The whole router -/

/-- The process gives no response of its own a request id. -/
theorem LocalOutcome.unnamed {past : RuntimePast} {outcome : Response}
    (h : LocalOutcome env parts past requestId outcome) :
    outcome.headers.getAll "x-request-id" = [] := by
  cases h with
  | file hroute hpath =>
    show (staticResponse _).headers.getAll _ = []
    unfold staticResponse
    cases (StaticAssets.responseFor env.web _).contentType <;> rfl
  | _ => rfl

theorem answered_of_routes {past : RuntimePast} {response : Response}
    (h : RoutesOutcome env parts past requestId response) :
    ∃ id outcome, Answered env parts past id outcome
      (applyResponsePolicy (withRequestId requestId response) (noStoreRequest parts)) := by
  have hbody : ∀ r, (applyResponsePolicy r (noStoreRequest parts)).body = r.body := fun _ => rfl
  have hstatus : ∀ r, (applyResponsePolicy r (noStoreRequest parts)).status = r.status :=
    fun _ => rfl
  cases h with
  | @api id outcome hid hsource =>
    have hnamed : withRequestId requestId (outcome.setHeader "x-request-id" (.ofText id)) =
        outcome.setHeader "x-request-id" (.ofText id) := by
      unfold withRequestId
      rw [if_pos (by simp)]
    refine ⟨id, outcome, hid, .inl hsource, ?_, ?_, ?_, applyResponsePolicy_policy, ?_⟩
    · rw [hstatus, hnamed, Response.setHeader_status]
    · rw [hbody, hnamed, Response.setHeader_body]
    · rw [applyResponsePolicy_other (by decide) (by decide), hnamed, Response.setHeader_headers,
        HeaderMap.getAll_insert]
    · intro name hpolicy hcors hne
      rw [applyResponsePolicy_other hpolicy hcors, hnamed, Response.setHeader_headers,
        HeaderMap.getAll_insert_ne hne]
  | own hid hsource =>
    have hnamed : withRequestId requestId response =
        response.setHeader "x-request-id" (.ofText requestId) := by
      unfold withRequestId
      rw [if_neg (by simp [hsource.unnamed])]
    refine ⟨requestId, response, hid, .inr hsource, ?_, ?_, ?_, applyResponsePolicy_policy, ?_⟩
    · rw [hstatus, hnamed, Response.setHeader_status]
    · rw [hbody, hnamed, Response.setHeader_body]
    · rw [applyResponsePolicy_other (by decide) (by decide), hnamed, Response.setHeader_headers,
        HeaderMap.getAll_insert]
    · intro name hpolicy hcors hne
      rw [applyResponsePolicy_other hpolicy hcors, hnamed, Response.setHeader_headers,
        HeaderMap.getAll_insert_ne hne]

/-- The router once the request has its id. -/
theorem ensures_routed (hid : RequestIdOf parts.headers (apiPast past) requestId)
    (hunissued : ∀ c ∈ past, c.query ≠ .issueLaunchToken)
    (hunasked : Unasked (apiPast past)) :
    Ensures (runtimeContract env parts) (do
      let response ← guarded env parts requestId
      pure (applyResponsePolicy (withRequestId requestId response) (noStoreRequest parts))) past := by
  rw [ensures_bind]
  exact (ensures_guarded hid hunissued hunasked).mono (fun _ _ => id)
    (fun _ _ h => answered_of_routes h) fun _ => id

/-- **The router meets its contract**, whatever its ports answer. -/
theorem runtimeRouter_ensures (env : RuntimeState) (parts : Parts) :
    Ensures (runtimeContract env parts) (runtimeRouter env parts) [] := by
  unfold runtimeRouter
  rw [ensures_bind]
  unfold chooseRuntimeRequestId
  split
  · rename_i id hcanonical
    exact ensures_routed (.inl hcanonical) (fun c hc => by cases hc) fun c hc => by cases hc
  · rename_i hnone
    rw [ensures_bind]
    refine ⟨trivial, fun answer => ?_⟩
    cases answer with
    | none => exact ⟨[], _, rfl⟩
    | some uuid =>
      refine ensures_routed (.inr ⟨hnone, uuid, List.mem_cons_self, rfl⟩) (fun c hc => ?_)
        fun c hc => ?_
      · obtain rfl := List.mem_singleton.1 hc
        simp
      · obtain rfl : c = ⟨.newV4, some uuid⟩ := List.mem_singleton.1 hc
        simp

/-! ## Runs -/

/-- **A backend operation is guarded.** In every run, finished or given up,
whatever the ports answer. -/
theorem backend_guarded {auth : AuthContext} {operation : Operation}
    (h : (runtimeRouter env parts).Asks past (.api (.backend auth operation))) :
    Entered parts past ∧ Authority parts (apiPast past) auth operation :=
  (runtimeRouter_ensures env parts).asks h

/-- **A response is what a port answered, and names its request.** In every
run that returns one. -/
theorem response_sound {response : Response} (h : (runtimeRouter env parts).Returns past response) :
    ∃ id outcome, Answered env parts past id outcome response :=
  (runtimeRouter_ensures env parts).returns h

end

/-! ## A run -/

def sampleState : RuntimeState where
  instanceId := 1
  publicOrigin := "http://127.0.0.1:43121"
  web :=
    { embeddedAsset := fun _ => none
      contentType := fun _ => "text/html"
      immutable := fun _ => false
      acceptsHtml := fun _ => true }

/-- A task is cancelled. -/
def sampleCancel : Parts where
  method := .post
  path := "/api/tasks/00000000-0000-0000-0000-00000000000a/cancel"
  query := none
  headers := []

/-- Every check is passed, and the operation is refused. -/
def sampleAnswer : (q : RuntimeCall) → Option (RuntimeAnswer q)
  | .api .newV4 => some 7
  | .api .body => some (.error 415)
  | .api (.validateHost _) => some (.ok ())
  | .api (.exchange _ _) => some (.error appStarting)
  | .api (.authorizeRead _) => some (.ok ⟨"session"⟩)
  | .api (.authorizeMutation _) => some (.ok ⟨"session"⟩)
  | .api (.backend _ _) => some (.error internalError)
  | .phase => some .ready
  | .authorizeLauncher _ => some (.ok ())
  | .nowUtc => some 0
  | .issueLaunchToken => some none

theorem backend_guarded_cancel : ∃ past, Entered sampleCancel past ∧
    Authority sampleCancel (apiPast past) ⟨"session"⟩ (.cancelTask ⟨10⟩) := by
  have hasked : ∃ c ∈ ((runtimeRouter sampleState sampleCancel).play sampleAnswer).1,
      c.query = .api (.backend ⟨"session"⟩ (.cancelTask ⟨10⟩)) := by decide +kernel
  obtain ⟨c, hc, hquery⟩ := hasked
  obtain ⟨past, -, hasks⟩ := asks_of_play hc
  rw [hquery] at hasks
  exact ⟨past, backend_guarded hasks⟩

theorem response_sound_cancel : ∃ past id outcome response,
    Answered sampleState sampleCancel past id outcome response ∧ response.status = 500 := by
  have hreturned : (((runtimeRouter sampleState sampleCancel).play sampleAnswer).2.map
      fun response => response.status) = some 500 := by decide +kernel
  obtain ⟨response, hresponse, hstatus⟩ := Option.map_eq_some_iff.1 hreturned
  obtain ⟨id, outcome, h⟩ := response_sound (returns_of_play hresponse)
  exact ⟨_, id, outcome, response, h, hstatus⟩

end CodingAgent.L4.App.Runtime
