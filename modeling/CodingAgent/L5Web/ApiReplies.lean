import CodingAgent.Core.JsValue
import CodingAgent.Core.TextDecoder
import CodingAgent.L4App.RuntimeContract
import CodingAgent.L5Web.ApiClient

/-!
# The client reads what was answered

A response of the process as it reaches `ApiClient`, and what the methods make
of it (`web/src/api/client.ts`, `coding-agent-api/src/router.rs`).

* `settled_render`, `settled_error`: the document of a reply, and the fields of
  an error.
* `reply_read`: of every run that asked for an operation, the client reads the
  reply of the operation, or its error with the id of the request.
-/
namespace CodingAgent.L5.Web.Client
open L1.Domain L3.Api.Http L3.Api.Router L4.App.Runtime Program

/-- The body of a response, as it is read; an empty one is no document, and a
stream does not end. -/
def wireBody : Body → ReplyBody
  | .json value | .quit value => .json value.jsValue
  | .empty => .notJson
  | .bytes value =>
    match Json.parseWide (Utf8.TextDecoder.dropMark false (Utf8.lossy value)).2 with
    | some value => .json value.jsValue
    | none => .notJson
  | .events _ => .unread

/-- A response as it reaches the client. The one to a `HEAD` comes without its body. -/
def wireReply (method : Method) (response : Response) : Reply :=
  .response response.status ((response.headers.get "x-request-id").bind HeaderValue.toStr)
    (if method = .head then .notJson else wireBody response.body)

/-- What was created, now or before. -/
def resource : CreateResult → Json
  | .created value | .existing value => value

/-- The document an operation is answered with; a quit without its trigger is
an error. -/
def replyDocument : (operation : Operation) → operation.Reply → Except ApiError Json
  | .bootstrap, value | .taskDetail _, value => .ok value
  | .listRepositories, values | .listTasks _, values | .taskEvents _ _, values => .ok (.array values)
  | .addRepository _, result | .createTask _, result | .retryTask _, result => .ok (resource result)
  | .pickRepository, some result => .ok (resource result)
  | .pickRepository, none => .ok .null
  | .cancelTask _, .finished task => .ok task
  | .cancelTask _, .accepted task =>
    .ok (.object [("task", task), ("cancellation_requested", .bool true)])
  | .requestQuit, true => .ok (.object [("status", .string "shutting_down")])
  | .requestQuit, false => .error internalQuitError

/-- The error a method rejects with. -/
def clientError (error : ApiError) (id : String) : ClientError :=
  let fields : ClientApiError :=
    { status := error.status
      code := error.code
      message := error.message
      retryable := error.retryable
      requestId := some id
      details := Json.lastMembers (Json.jsMembers error.details) }
  if error.status = 401 then .sessionExpired fields else .api fields

/-- What the caller of a method gets of the answer of its operation. -/
def readAs (id : String) (operation : Operation) (answer : Except ApiError operation.Reply) :
    Except ClientError Json :=
  match answer.bind (replyDocument operation) with
  | .ok document => .ok document.jsValue
  | .error error => .error (clientError error id)

section
variable {method : Method} {response : Response}

theorem wireReply_of_ne_head (h : method ≠ .head) : wireReply method response =
    .response response.status ((response.headers.get "x-request-id").bind HeaderValue.toStr)
      (wireBody response.body) := by
  rw [wireReply, if_neg h]

theorem settled_error {error : ApiError} {id : String} (hmethod : method ≠ .head)
    (hstatus : response.status = error.status)
    (hbody : response.body = .json (apiErrorResponse error id)) (herror : 400 ≤ error.status) :
    settled (wireReply method response) = .error (clientError error id) := by
  have hok : isOk error.status = false := by
    rw [isOk, Bool.and_eq_false_iff, decide_eq_false_iff_not, decide_eq_false_iff_not]
    omega
  rw [wireReply_of_ne_head hmethod]
  unfold settled
  rw [hstatus, hbody]
  simp only
  rw [if_pos hok]
  rfl

theorem settled_render {operation : Operation} {reply : operation.Reply} {outcome : Response}
    (hmethod : method ≠ .head) (hrender : render operation reply = .ok outcome)
    (hstatus : response.status = outcome.status) (hbody : response.body = outcome.body) :
    ∃ document, replyDocument operation reply = .ok document ∧
      settled (wireReply method response) = .ok document.jsValue := by
  rw [wireReply_of_ne_head hmethod]
  have hjson : ∀ {status document}, outcome = .json status document →
      status = 200 ∨ status = 201 ∨ status = 202 → settled (.response response.status
        ((response.headers.get "x-request-id").bind HeaderValue.toStr) (wireBody response.body)) =
          .ok document.jsValue := by
    rintro status document rfl hs
    unfold settled
    rw [hstatus, hbody]
    rcases hs with rfl | rfl | rfl <;> rfl
  have hcreated : ∀ {result}, outcome = createdResponse result → settled (.response response.status
      ((response.headers.get "x-request-id").bind HeaderValue.toStr) (wireBody response.body)) =
        .ok (resource result).jsValue := by
    intro result heq
    cases result with
    | created value => exact hjson heq (.inr (.inl rfl))
    | existing value => exact hjson heq (.inl rfl)
  cases operation with
  | addRepository request => exact ⟨_, rfl, hcreated (Except.ok.inj hrender).symm⟩
  | createTask request => exact ⟨_, rfl, hcreated (Except.ok.inj hrender).symm⟩
  | retryTask id => exact ⟨_, rfl, hcreated (Except.ok.inj hrender).symm⟩
  | pickRepository =>
    cases reply with
    | none =>
      obtain rfl := Except.ok.inj hrender
      refine ⟨.null, rfl, ?_⟩
      unfold settled
      rw [hstatus]
      rfl
    | some result => exact ⟨_, rfl, hcreated (Except.ok.inj hrender).symm⟩
  | cancelTask id =>
    cases reply with
    | finished task => exact ⟨_, rfl, hjson (Except.ok.inj hrender).symm (.inl rfl)⟩
    | accepted task => exact ⟨_, rfl, hjson (Except.ok.inj hrender).symm (.inr (.inr rfl))⟩
  | requestQuit =>
    cases reply with
    | false => cases hrender
    | true =>
      obtain rfl := Except.ok.inj hrender
      refine ⟨_, rfl, ?_⟩
      unfold settled
      rw [hstatus, hbody]
      rfl
  | _ => exact ⟨_, rfl, hjson (Except.ok.inj hrender).symm (.inl rfl)⟩

/-- A document that JavaScript keeps is read as it is. -/
theorem readAs_of_exact {id : String} {operation : Operation}
    {answer : Except ApiError operation.Reply} {document : Json}
    (h : answer.bind (replyDocument operation) = .ok document) (hexact : document.Exact) :
    readAs id operation answer = .ok document := by
  unfold readAs
  rw [h]
  exact congrArg Except.ok (Json.jsValue_of_exact document hexact)

end

/-! ## Runs -/

section
variable {env : RuntimeState} {parts : Parts} {before : RuntimePast} {response : Response}
  {auth : AuthContext} {operation : Operation} {answer : Except ApiError operation.Reply}

/-- **The client reads what the operation was answered with.** In every run
that ended with an operation and its answer, whatever came before: the document
of a reply, the fields of an error and the id of the request, and the end of
the session where the status is 401. A document whose integers are doubles up to
2^53 is read as it is. -/
theorem reply_read
    (h : (runtimeRouter env parts).Returns
      (before ++ [⟨.api (.backend auth operation), some answer⟩]) response)
    (hmethod : parts.method ≠ .head) (hstatus : ∀ error, answer = .error error → 400 ≤ error.status) :
    ∃ id, RequestIdOf parts.headers (apiPast before) id ∧
      settled (wireReply parts.method response) = readAs id operation answer ∧
      ∀ document, answer.bind (replyDocument operation) = .ok document → document.Exact →
        settled (wireReply parts.method response) = .ok document := by
  obtain ⟨id, outcome, hanswered⟩ := (runtimeRouter_ensures env parts).returns h
  have hpast : apiPast (before ++ [⟨.api (.backend auth operation), some answer⟩]) =
      apiPast before ++ [⟨.backend auth operation, some answer⟩] := by
    rw [apiPast_append]
    rfl
  have hid := hanswered.requestId
  have hsource := hanswered.source
  rw [hpast] at hid hsource
  have hasked : ¬Unasked (apiPast before ++ [⟨.backend auth operation, some answer⟩]) := by
    intro hunasked
    exact hunasked _ (mem_last _ _) auth operation rfl
  suffices hread : settled (wireReply parts.method response) = readAs id operation answer by
    refine ⟨id, ?_, hread, fun document hdocument hexact => hread.trans
      (readAs_of_exact hdocument hexact)⟩
    refine hid.imp_right fun ⟨hnone, uuid, hmem, heq⟩ => ⟨hnone, uuid, ?_, heq⟩
    rcases List.mem_append.1 hmem with hmem | hmem
    · exact hmem
    · cases List.mem_singleton.1 hmem
  · rcases hsource with (hsucceeded | ⟨error, hrefused, rfl⟩) | hlocal
    · cases hsucceeded with
      | operation hlast hrender =>
        cases (List.append_inj' hlast rfl).2
        obtain ⟨document, hdocument, hsettled⟩ :=
          settled_render hmethod hrender hanswered.status hanswered.body
        unfold readAs
        simp only [Except.bind, hdocument]
        exact hsettled
      | exchange hlast => cases (List.append_inj' hlast rfl).2
      | events hlast => cases (List.append_inj' hlast rfl).2
    · have herror : 400 ≤ error.status →
          settled (wireReply parts.method response) = .error (clientError error id) :=
        settled_error hmethod hanswered.status hanswered.body
      cases hrefused with
      | answered hlast hanswer =>
        obtain rfl := List.cons.inj (List.append_inj' hlast rfl).2 |>.1
        cases answer with
        | ok reply => cases hanswer
        | error e =>
          obtain rfl := Option.some.inj hanswer
          exact herror (hstatus _ rfl)
      | unreadable hlast => cases (List.append_inj' hlast rfl).2
      | parameter hunasked => exact absurd hunasked hasked
      | untriggered hlast =>
        cases (List.append_inj' hlast rfl).2
        exact herror (by decide)
      | panicked hlast => cases (List.append_inj' hlast rfl).2
      | routeless hunasked => exact absurd hunasked hasked
      | methodless hunasked => exact absurd hunasked hasked
    · rw [← hpast] at hasked
      cases hlocal with
      | refused hlast => cases (List.append_inj' hlast rfl).2
      | starting hlast => cases (List.append_inj' hlast rfl).2
      | launcher hlast => cases (List.append_inj' hlast rfl).2
      | ready hlast =>
        cases (List.append_inj' (hlast.trans (List.append_assoc _ [_] [_]).symm) rfl).2
      | reopened hlast =>
        cases (List.append_inj' (hlast.trans (List.append_assoc _ [_] [_]).symm) rfl).2
      | clock hlast => cases (List.append_inj' hlast rfl).2
      | random hlast => cases (List.append_inj' hlast rfl).2
      | method hunasked => exact absurd hunasked hasked
      | file hunasked => exact absurd hunasked hasked

end

/-- The run of a request whose last question is for an operation. -/
theorem returns_backend (env : RuntimeState) (parts : Parts) (auth : AuthContext)
    (operation : Operation) (answer : (q : RuntimeCall) → Option (RuntimeAnswer q))
    (a : Except ApiError operation.Reply) (ha : answer (.api (.backend auth operation)) = some a)
    (hreturned : ((runtimeRouter env parts).play answer).2.isSome = true)
    (hasked : (((runtimeRouter env parts).play answer).1.map Asked.query).getLast? =
      some (.api (.backend auth operation))) :
    ∃ before response, (runtimeRouter env parts).Returns
      (before ++ [⟨.api (.backend auth operation), some a⟩]) response := by
  obtain ⟨response, hresponse⟩ := Option.isSome_iff_exists.1 hreturned
  rw [List.getLast?_map] at hasked
  obtain ⟨⟨query, given⟩, hlast, rfl⟩ := Option.map_eq_some_iff.1 hasked
  obtain ⟨before, hpast⟩ := List.getLast?_eq_some_iff.1 hlast
  obtain rfl : given = some a := (answer_of_play (List.mem_of_getLast? hlast)).trans ha
  have hreturns := returns_of_play hresponse
  rw [hpast] at hreturns
  exact ⟨before, response, hreturns⟩

/-- The bootstrap of a store with three events. -/
def sampleReply : Json := .object [("csrf_token", .string "c"), ("latest_event_id", .int 3)]

def sampleRead : Parts where
  method := .get
  path := "/api/bootstrap"
  query := none
  headers := []

def replyingAnswer : (q : RuntimeCall) → Option (RuntimeAnswer q)
  | .api (.backend _ .bootstrap) => some (.ok sampleReply)
  | q => sampleAnswer q

/-- An error of the backend, and a document. -/
theorem reply_read_sample :
    (∃ response id, settled (wireReply .post response) = .error (clientError internalError id)) ∧
      ∃ response, settled (wireReply .get response) = .ok sampleReply := by
  obtain ⟨before, response, hcancel⟩ := returns_backend sampleState sampleCancel ⟨"session"⟩
    (.cancelTask ⟨10⟩) sampleAnswer (.error internalError) rfl (by decide +kernel) (by decide +kernel)
  obtain ⟨before', response', hbootstrap⟩ := returns_backend sampleState sampleRead ⟨"session"⟩
    .bootstrap replyingAnswer (.ok sampleReply) rfl (by decide +kernel) (by decide +kernel)
  obtain ⟨id, -, hread, -⟩ := reply_read hcancel (by decide) fun error heq => by
    obtain rfl := Except.error.inj heq
    decide
  obtain ⟨-, -, -, hdocument⟩ := reply_read hbootstrap (by decide) fun error heq => by cases heq
  have hexact : sampleReply.Exact := ⟨by decide, trivial, show 3 ≤ 2 ^ 53 by decide, trivial⟩
  exact ⟨⟨response, id, hread⟩, response', hdocument sampleReply rfl hexact⟩

end CodingAgent.L5.Web.Client
