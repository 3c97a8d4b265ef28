import CodingAgent.L3Api.RouterContract

/-!
# The operation of a request (`coding-agent-api/src/router.rs`)

`operationOf` says for every request, without a run, which backend operation it
is a request for: the abstract reading of the routes, the handlers and their
parameters.

* `operationOf_of_requests`: what the contract of the router says was requested
  is that operation.
* `reaches_handler`, `reaches_apiRouter`: a request whose checks are passed comes to
  its operation.
-/
namespace CodingAgent.L3.Api.Router
open CodingAgent.L1.Domain
open Http
open Program

/-- Whether the request is a mutation, by its method. -/
def mutationOf : Method → Option Bool
  | .post => some true
  | .get | .head => some false
  | .other _ => none

/-- The operation of a request with this body. -/
def operationOf (parts : Parts) (text : String) : Option Operation := do
  match ← route parts, ← mutationOf parts.method with
  | .bootstrap, false => some .bootstrap
  | .repositories, false => some .listRepositories
  | .repositories, true =>
    return .addRepository (← AddRepositoryRequest.fromStr text)
  | .pickRepository, true => some .pickRepository
  | .tasks, false => return .listTasks (← (repositoryFilter parts).toOption)
  | .tasks, true => return .createTask (← CreateTaskRequest.fromStr text)
  | .task, false => return .taskDetail (← (taskIdAt parts 3).toOption)
  | .cancelTask, true => return .cancelTask (← (taskIdAt parts 3).toOption)
  | .retryTask, true => return .retryTask (← (taskIdAt parts 3).toOption)
  | .taskEvents, false =>
    return .taskEvents (← (taskIdAt parts 3).toOption) (← (afterQuery parts).toOption)
  | .quit, true => some .requestQuit
  | _, _ => none

section
variable {parts : Parts} {past : Past} {text : String} {operation : Operation}

theorem mutationOf_of_methodOf {mutation : Bool} (h : MethodOf parts mutation) :
    mutationOf parts.method = some mutation := by
  unfold MethodOf at h
  cases mutation with
  | true =>
    rw [if_pos rfl] at h
    rw [h]
    rfl
  | false =>
    rw [if_neg (by simp)] at h
    rcases h with h | h <;> rw [h] <;> rfl

theorem operationOf_of_requests (h : Requests parts past operation)
    (hmethod : MethodOf parts operation.mutates)
    (hbody : ∀ read, ⟨.body, some (.ok read)⟩ ∈ past → read = text) :
    operationOf parts text = some operation := by
  have hmutation := mutationOf_of_methodOf hmethod
  have hread : ∀ {T : Type} {fromStr : String → Option T} {request : T},
      ReadBody fromStr past request →
      fromStr text = some request := by
    rintro T fromStr request ⟨read, hmem, hread⟩
    rw [← hbody read hmem]
    exact hread
  unfold operationOf
  rw [hmutation]
  cases operation with
  | bootstrap => simp [show route parts = _ from h, Operation.mutates]
  | listRepositories => simp [show route parts = _ from h, Operation.mutates]
  | pickRepository => simp [show route parts = _ from h, Operation.mutates]
  | requestQuit => simp [show route parts = _ from h, Operation.mutates]
  | addRepository request => simp [h.1, Operation.mutates, hread h.2]
  | createTask request => simp [h.1, Operation.mutates, hread h.2]
  | listTasks repositoryId => simp [h.1, Operation.mutates, h.2, Except.toOption]
  | taskDetail id => simp [h.1, Operation.mutates, h.2, Except.toOption]
  | cancelTask id => simp [h.1, Operation.mutates, h.2, Except.toOption]
  | retryTask id => simp [h.1, Operation.mutates, h.2, Except.toOption]
  | taskEvents id after => simp [h.1, Operation.mutates, h.2.1, h.2.2, Except.toOption]

end

/-! ## Requests that are accepted -/

/-- Answers with which a request passes every check. -/
structure Accepting (answer : (q : Call) → Option (Answer q)) (parts : Parts) (text : String)
    (auth : AuthContext) : Prop where
  newV4 : (answer .newV4).isSome
  host : answer (.validateHost parts) = some (.ok ())
  read : answer (.authorizeRead parts) = some (.ok auth)
  mutation : answer (.authorizeMutation parts) = some (.ok auth)
  body : answer .body = some (.ok text)

section
variable {answer : (q : Call) → Option (Answer q)} {parts : Parts} {text : String}
  {auth : AuthContext} {operation : Operation} {query : Call} {T : Type}

theorem reaches_authorizeRead {f : AuthContext → Handling T} (h : Accepting answer parts text auth)
    (hf : Reaches answer (f auth).run query) :
    Reaches answer (authorizeRead parts >>= f).run query :=
  Yields.reaches_attempt (yields_call h.read) hf

theorem reaches_authorizeMutation {f : AuthContext → Handling T}
    (h : Accepting answer parts text auth) (hf : Reaches answer (f auth).run query) :
    Reaches answer (authorizeMutation parts >>= f).run query :=
  Yields.reaches_attempt (yields_call h.mutation) hf

theorem reaches_check {R : Type} {result : Except ApiError R} {a : R} {f : R → Handling T}
    (h : result.toOption = some a) (hf : Reaches answer (f a).run query) :
    Reaches answer (check result >>= f).run query := by
  cases result with
  | error e => cases h
  | ok b =>
    obtain rfl := Option.some.inj h
    exact Yields.reaches_attempt (yields_pure (Except.ok b)) hf

theorem reaches_decode {R : Type} {fromStr : String → Option R} {a : R} {f : R → Handling T}
    (h : Accepting answer parts text auth)
    (hread : fromStr text = some a)
    (hf : Reaches answer (f a).run query) : Reaches answer (decode fromStr >>= f).run query := by
  refine Yields.reaches_attempt ?_ hf
  unfold decode
  rw [ExceptT.run_mk]
  refine Yields.bind (yields_call h.body) ?_
  have hdecode : decodeJson fromStr (Except.ok text) = .ok a := by
    unfold decodeJson
    simp only
    rw [hread]
  rw [hdecode]
  exact yields_pure _

theorem reaches_backend {f : operation.Reply → Handling T} :
    Reaches answer (backend auth operation >>= f).run (.backend auth operation) :=
  reaches_attempt (reaches_call (Call.backend auth operation))

theorem method_of_mutationOf {mutation : Bool} (h : mutationOf parts.method = some mutation) :
    (if parts.method = .head then .get else parts.method) =
      if mutation then Method.post else Method.get := by
  cases hm : parts.method with
  | other name => simp [hm, mutationOf] at h
  | _ =>
    rw [hm] at h
    obtain rfl := Option.some.inj h
    rfl

/-- The handler of the request comes to the operation. -/
theorem reaches_handler (h : Accepting answer parts text auth)
    (hop : operationOf parts text = some operation) :
    ∃ r handling, route parts = some r ∧ handler parts r = some handling ∧
      Reaches answer handling.run (.backend auth operation) := by
  unfold operationOf at hop
  rw [Option.bind_eq_bind, Option.bind_eq_some_iff] at hop
  obtain ⟨r, hroute, hop⟩ := hop
  rw [Option.bind_eq_bind, Option.bind_eq_some_iff] at hop
  obtain ⟨mutation, hmutation, hop⟩ := hop
  have hmethod := method_of_mutationOf hmutation
  unfold handler
  rw [hmethod]
  have hnone : ∀ {P : Prop}, (none : Option Operation) = some operation → P := by
    intro P h
    cases h
  cases r with
  | exchangeSession => exact hnone hop
  | events => exact hnone hop
  | bootstrap =>
    cases mutation with
    | true => exact hnone hop
    | false =>
      obtain rfl := Option.some.inj hop
      refine ⟨_, bootstrap parts, hroute, rfl, ?_⟩
      unfold bootstrap
      exact reaches_authorizeRead h reaches_backend
  | repositories =>
    cases mutation with
    | true =>
      obtain ⟨request, hread, heq⟩ := Option.bind_eq_some_iff.1 hop
      obtain rfl := Option.some.inj heq
      refine ⟨_, addRepository parts, hroute, rfl, ?_⟩
      unfold addRepository
      exact reaches_authorizeMutation h (reaches_decode h hread reaches_backend)
    | false =>
      obtain rfl := Option.some.inj hop
      refine ⟨_, repositories parts, hroute, rfl, ?_⟩
      unfold repositories
      exact reaches_authorizeRead h reaches_backend
  | pickRepository =>
    cases mutation with
    | true =>
      obtain rfl := Option.some.inj hop
      refine ⟨_, pickRepository parts, hroute, rfl, ?_⟩
      unfold pickRepository
      exact reaches_authorizeMutation h reaches_backend
    | false => exact hnone hop
  | tasks =>
    cases mutation with
    | true =>
      obtain ⟨request, hread, heq⟩ := Option.bind_eq_some_iff.1 hop
      obtain rfl := Option.some.inj heq
      refine ⟨_, createTask parts, hroute, rfl, ?_⟩
      unfold createTask
      exact reaches_authorizeMutation h (reaches_decode h hread reaches_backend)
    | false =>
      obtain ⟨repositoryId, hread, heq⟩ := Option.bind_eq_some_iff.1 hop
      obtain rfl := Option.some.inj heq
      refine ⟨_, tasks parts, hroute, rfl, ?_⟩
      unfold tasks
      exact reaches_authorizeRead h (reaches_check hread reaches_backend)
  | task =>
    cases mutation with
    | true => exact hnone hop
    | false =>
      obtain ⟨id, hid, heq⟩ := Option.bind_eq_some_iff.1 hop
      obtain rfl := Option.some.inj heq
      refine ⟨_, taskDetail parts, hroute, rfl, ?_⟩
      unfold taskDetail
      exact reaches_authorizeRead h (reaches_check hid reaches_backend)
  | cancelTask =>
    cases mutation with
    | true =>
      obtain ⟨id, hid, heq⟩ := Option.bind_eq_some_iff.1 hop
      obtain rfl := Option.some.inj heq
      refine ⟨_, cancelTask parts, hroute, rfl, ?_⟩
      unfold cancelTask
      exact reaches_authorizeMutation h (reaches_check hid reaches_backend)
    | false => exact hnone hop
  | retryTask =>
    cases mutation with
    | true =>
      obtain ⟨id, hid, heq⟩ := Option.bind_eq_some_iff.1 hop
      obtain rfl := Option.some.inj heq
      refine ⟨_, retryTask parts, hroute, rfl, ?_⟩
      unfold retryTask
      exact reaches_authorizeMutation h (reaches_check hid reaches_backend)
    | false => exact hnone hop
  | taskEvents =>
    cases mutation with
    | true => exact hnone hop
    | false =>
      obtain ⟨id, hid, hop⟩ := Option.bind_eq_some_iff.1 hop
      obtain ⟨after, hafter, heq⟩ := Option.bind_eq_some_iff.1 hop
      obtain rfl := Option.some.inj heq
      refine ⟨_, taskEvents parts, hroute, rfl, ?_⟩
      unfold taskEvents
      exact reaches_authorizeRead h (reaches_check hid (reaches_check hafter reaches_backend))
  | quit =>
    cases mutation with
    | true =>
      obtain rfl := Option.some.inj hop
      refine ⟨_, quit parts, hroute, rfl, ?_⟩
      unfold quit
      exact reaches_authorizeMutation h reaches_backend
    | false => exact hnone hop

theorem yields_chooseRequestId (h : Accepting answer parts text auth) (headers : HeaderMap) :
    ∃ id, Yields answer (chooseRequestId headers) id := by
  unfold chooseRequestId
  split
  · exact ⟨_, yields_pure _⟩
  · obtain ⟨uuid, huuid⟩ := Option.isSome_iff_exists.1 h.newV4
    exact ⟨uuid.text, Yields.bind (yields_call huuid) (yields_pure _)⟩

/-- A request that passes the guards comes to what its handler asks for. -/
theorem reaches_apiRouter (h : Accepting answer parts text auth) {r : Route}
    {handling : Handling Response} (hroute : route parts = some r)
    (hhandler : handler parts r = some handling) (hreaches : Reaches answer handling.run query) :
    Reaches answer (apiRouter parts) query := by
  obtain ⟨id, hid⟩ := yields_chooseRequestId h parts.headers
  have hdispatch : Reaches answer (dispatch parts id) query := by
    unfold dispatch
    rw [hroute]
    simp only
    rw [hhandler]
    exact reaches_of_first hreaches
  unfold apiRouter requestEnvelope
  refine Yields.reaches hid (reaches_of_first (reaches_recover ?_))
  unfold hostGuard
  exact Yields.reaches (yields_call h.host) hdispatch

end
end CodingAgent.L3.Api.Router
