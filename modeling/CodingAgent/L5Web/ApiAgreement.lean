import CodingAgent.L3Api.RequestMeaning
import CodingAgent.L4App.RuntimeContract
import CodingAgent.L5Web.ApiClient

/-!
# The client and the router understand each other

Every request of the client (`web/src/api/client.ts`), where its ids are those
of the server, is the request of one operation to the router
(`coding-agent-api/src/router.rs`), arguments included.

* `pathSegments_sent`, `queryValue_sent`: what was put in a URL is read from it.
* `operationOf_sent`: the request of a call is one for the operation it names.
* `router_asks_exactly`: against answers that accept a request, the router asks
  for the operation of the request and no other.
* `sent_operation`: of a request of the client, for the operation it names.
-/
namespace CodingAgent.L5.Web.Client
open L1.Domain L3.Api.Http L3.Api.Router L4.App.Runtime Program

/-- The call of an operation; ids are in their text. -/
inductive Names : ClientCall → Operation → Prop
  | bootstrap : Names .bootstrap .bootstrap
  | listRepositories : Names .listRepositories .listRepositories
  | addRepository (path : String) : Names (.addRepository path) (.addRepository ⟨path⟩)
  | pickRepository : Names .pickRepository .pickRepository
  | listTasks : Names (.listTasks none) (.listTasks none)
  | listTasksOf (id : RepositoryId) : Names (.listTasks (some id.text)) (.listTasks (some id))
  | createTask (clientRequestId : ClientRequestId) (repositoryId : RepositoryId) (prompt : String) :
    Names (.createTask ⟨clientRequestId.text, repositoryId.text, prompt⟩)
      (.createTask ⟨clientRequestId, repositoryId, prompt⟩)
  | taskDetail (id : TaskId) : Names (.taskDetail id.text) (.taskDetail id)
  | cancelTask (id : TaskId) : Names (.cancelTask id.text) (.cancelTask id)
  | retryTask (id : TaskId) : Names (.retryTask id.text) (.retryTask id)
  | taskEvents (id : TaskId) : Names (.taskEvents id.text none) (.taskEvents id 0)
  | taskEventsAfter (id : TaskId) (after : Nat) : after < 2 ^ 53 →
    Names (.taskEvents id.text (some after)) (.taskEvents id after)
  | quit : Names .quit .requestQuit

/-- The text of a path between its slashes. -/
def segments : ClientCall → List (List Char)
  | .exchange _ => ["", "api", "session", "exchange"].map String.toList
  | .bootstrap => ["", "api", "bootstrap"].map String.toList
  | .listRepositories | .addRepository _ => ["", "api", "repositories"].map String.toList
  | .pickRepository => ["", "api", "repositories", "pick"].map String.toList
  | .listTasks _ | .createTask _ => ["", "api", "tasks"].map String.toList
  | .taskDetail id => ["", "api", "tasks"].map String.toList ++ [encodeURIComponent id]
  | .cancelTask id =>
    ["", "api", "tasks"].map String.toList ++ [encodeURIComponent id, "cancel".toList]
  | .retryTask id =>
    ["", "api", "tasks"].map String.toList ++ [encodeURIComponent id, "retry".toList]
  | .taskEvents id _ =>
    ["", "api", "tasks"].map String.toList ++ [encodeURIComponent id, "events".toList]
  | .quit => ["", "api", "app", "quit"].map String.toList

def queryText : ClientCall → Option (List Char)
  | .listTasks (some repositoryId) => some (searchParams "repository_id" repositoryId.toList)
  | .taskEvents _ (some after) => some (searchParams "after" (Nat.toDigits 10 after))
  | _ => none

/-- The request of a call, as `fetch` puts its URL on the wire, with its body. -/
structure Sent (call : ClientCall) (parts : Parts) (text : String) : Prop where
  method : parts.method = call.method
  path : parts.path.toList = call.url.takeWhile (· ≠ '?')
  query : parts.query.map String.toList = ((call.url.dropWhile (· ≠ '?')).tail? )
  body : ∀ document, call.body = some document → Serde.fromStr text = some document

/-! ## Texts in URLs -/

/-- What a URL carries as it is. -/
structure Clean (cs : List Char) : Prop where
  unescaped : ∀ c ∈ cs, isUnescaped c = true
  formSafe : ∀ c ∈ cs, isFormSafe c = true
  slash : '/' ∉ cs
  mark : '?' ∉ cs
  ampersand : '&' ∉ cs
  space : ∀ c ∈ cs, c ≠ ' '

def isClean (c : Char) : Bool :=
  isUnescaped c && isFormSafe c && c ≠ '/' && c ≠ '?' && c ≠ '&' && c ≠ ' '

theorem clean_of_all {cs : List Char} (h : cs.all isClean = true) : Clean cs := by
  have hall : ∀ c ∈ cs, isUnescaped c = true ∧ isFormSafe c = true ∧ c ≠ '/' ∧ c ≠ '?' ∧ c ≠ '&' ∧
      c ≠ ' ' := by
    intro c hc
    simpa [isClean, and_assoc] using List.all_eq_true.1 h c hc
  exact ⟨fun c hc => (hall c hc).1, fun c hc => (hall c hc).2.1, fun hc => (hall _ hc).2.2.1 rfl,
    fun hc => (hall _ hc).2.2.2.1 rfl, fun hc => (hall _ hc).2.2.2.2.1 rfl,
    fun c hc => (hall c hc).2.2.2.2.2⟩

theorem clean_of_digits {cs : List Char}
    (h : ∀ c ∈ cs, c = '-' ∨ ∃ d, d < 16 ∧ c = Nat.digitChar d) : Clean cs := by
  refine clean_of_all (List.all_eq_true.2 fun c hc => ?_)
  rcases h c hc with rfl | ⟨d, hd, rfl⟩
  · decide
  · have hall : ∀ d : Fin 16, isClean d.val.digitChar = true := by decide
    exact hall ⟨d, hd⟩

theorem clean_uuid (uuid : Uuid) : Clean uuid.text.toList := by
  refine clean_of_digits fun c hc => ?_
  have hnumeral : ∀ {w n : Nat}, c ∈ Digits.numeral 16 w n → ∃ d, d < 16 ∧ c = Nat.digitChar d :=
    Digits.mem_numeral (by decide)
  rw [Uuid.text, String.toList_ofList, UuidText.format] at hc
  simp only [List.mem_append, List.mem_cons] at hc
  rcases hc with hc | hc | hc | hc | hc | hc | hc | hc | hc
  · exact .inr (hnumeral hc)
  · exact .inl hc
  · exact .inr (hnumeral hc)
  · exact .inl hc
  · exact .inr (hnumeral hc)
  · exact .inl hc
  · exact .inr (hnumeral hc)
  · exact .inl hc
  · exact .inr (hnumeral hc)

theorem mem_toDigits {n : Nat} {c : Char} (h : c ∈ Nat.toDigits 10 n) :
    ∃ d, d < 16 ∧ c = Nat.digitChar d := by
  induction n using Nat.strong_induction_on with
  | _ n ih =>
    by_cases hn : n < 10
    · rw [Nat.toDigits_of_lt_base hn, List.mem_singleton] at h
      exact ⟨n, by omega, h⟩
    · rw [Nat.toDigits_of_base_le (by decide) (by omega), List.mem_append, List.mem_singleton] at h
      rcases h with h | h
      · exact ih (n / 10) (by omega) h
      · exact ⟨n % 10, by omega, h⟩

theorem readNumeral_toDigits (n : Nat) : Digits.readNumeral 10 (Nat.toDigits 10 n) = some n := by
  have hpush : ∀ m d : Nat, d < 10 → Digits.pushDigit 10 m d.digitChar = some (10 * m + d) := by
    intro m d hd
    unfold Digits.pushDigit
    rw [Digits.digitValue_digitChar (by omega), Option.bind_some, if_pos hd]
  induction n using Nat.strong_induction_on with
  | _ n ih =>
    by_cases hn : n < 10
    · rw [Nat.toDigits_of_lt_base hn]
      refine (Digits.readNumeral_snoc 10 [] _).trans ?_
      show Digits.pushDigit 10 0 n.digitChar = some n
      rw [hpush 0 n hn, Nat.mul_zero, Nat.zero_add]
    · rw [Nat.toDigits_of_base_le (by decide) (by omega), Digits.readNumeral_snoc,
        ih (n / 10) (by omega), Option.bind_some, hpush _ _ (by omega)]
      congr 1
      omega

theorem clean_toDigits (n : Nat) : Clean (Nat.toDigits 10 n) :=
  clean_of_digits fun _ hc => .inr (mem_toDigits hc)

theorem encodeURIComponent_of_clean {text : String} (h : Clean text.toList) :
    encodeURIComponent text = text.toList :=
  escapeText_of_kept h.unescaped

theorem searchParams_of_clean {name : String} {value : List Char} (hname : Clean name.toList)
    (h : Clean value) : searchParams name value = name.toList ++ '=' :: value := by
  have hencode : ∀ {cs : List Char}, Clean cs →
      cs.flatMap (fun c => if c = ' ' then ['+'] else escapeText isFormSafe [c]) = cs := by
    intro cs hcs
    have hone : ∀ c ∈ cs, (if c = ' ' then ['+'] else escapeText isFormSafe [c]) = [c] := by
      intro c hc
      rw [if_neg (hcs.space c hc)]
      exact escapeText_of_kept fun d hd => by
        rw [List.mem_singleton.1 hd]
        exact hcs.formSafe c hc
    rw [List.flatMap_congr hone]
    simp
  unfold searchParams
  simp only
  rw [hencode hname, hencode h]

/-! ## The path -/

theorem mem_escapeText {keep : Char → Bool} {cs : List Char} {c : Char}
    (h : c ∈ escapeText keep cs) :
    keep c = true ∨ c = '%' ∨ ∃ d, d < 16 ∧ c = (Nat.digitChar d).toUpper := by
  unfold escapeText at h
  obtain ⟨k, -, hc⟩ := List.mem_flatMap.1 h
  split at hc
  · next hk =>
    rw [List.mem_singleton.1 hc]
    exact .inl hk
  · obtain ⟨b, -, hc⟩ := List.mem_flatMap.1 hc
    have hb := b.toNat_lt
    simp only [escapeByte, List.mem_cons, List.not_mem_nil, or_false] at hc
    rcases hc with hc | hc | hc
    · exact .inr (.inl hc)
    · exact .inr (.inr ⟨_, by omega, hc⟩)
    · exact .inr (.inr ⟨_, by omega, hc⟩)

theorem toUpper_digitChar {d : Nat} (h : d < 16) :
    d.digitChar.toUpper ≠ '/' ∧ d.digitChar.toUpper ≠ '?' := by
  have key : ∀ d : Fin 16, d.val.digitChar.toUpper ≠ '/' ∧ d.val.digitChar.toUpper ≠ '?' := by decide
  exact key ⟨d, h⟩

/-- A text that is encoded ends no segment and no path. -/
theorem encodeURIComponent_plain (text : String) :
    '/' ∉ encodeURIComponent text ∧ '?' ∉ encodeURIComponent text := by
  constructor <;> intro h <;> rcases mem_escapeText h with h | h | ⟨d, hd, h⟩
  · exact absurd h (by decide)
  · exact absurd h (by decide)
  · exact (toUpper_digitChar hd).1 h.symm
  · exact absurd h (by decide)
  · exact absurd h (by decide)
  · exact (toUpper_digitChar hd).2 h.symm

theorem segments_plain (call : ClientCall) : ∀ s ∈ segments call, '/' ∉ s ∧ '?' ∉ s := by
  have hfixed : ∀ s ∈ ["", "api", "tasks"].map String.toList, '/' ∉ s ∧ '?' ∉ s := by decide
  have htasks : ∀ {id rest}, (∀ s ∈ rest, '/' ∉ s ∧ '?' ∉ s) →
      ∀ s ∈ ["", "api", "tasks"].map String.toList ++ encodeURIComponent id :: rest,
        '/' ∉ s ∧ '?' ∉ s := by
    intro id rest hrest s hs
    rcases List.mem_append.1 hs with hs | hs
    · exact hfixed s hs
    · rcases List.mem_cons.1 hs with rfl | hs
      · exact encodeURIComponent_plain id
      · exact hrest s hs
  cases call <;> unfold segments
  case taskDetail id => exact htasks (by simp)
  case cancelTask id => exact htasks (by decide)
  case retryTask id => exact htasks (by decide)
  case taskEvents id after => exact htasks (by decide)
  all_goals
    dsimp only
    decide

theorem url_eq (call : ClientCall) : call.url =
    ['/'].intercalate (segments call) ++ ((queryText call).map ('?' :: ·)).getD [] := by
  have hone : ∀ id : List Char, ['/'].intercalate (["", "api", "tasks"].map String.toList ++ [id]) =
      "/api/tasks/".toList ++ id := by
    intro id
    show "/api/tasks/".toList ++ (id ++ []) = _
    rw [List.append_nil]
  have htwo : ∀ id last : List Char,
      ['/'].intercalate (["", "api", "tasks"].map String.toList ++ [id, last]) =
        "/api/tasks/".toList ++ (id ++ '/' :: last) := by
    intro id last
    show "/api/tasks/".toList ++ (id ++ '/' :: (last ++ [])) = _
    rw [List.append_nil]
  cases call with
  | listTasks repositoryId => cases repositoryId <;> rfl
  | taskDetail id =>
    unfold ClientCall.url ClientCall.tasksPath segments queryText
    rw [hone]
    exact (List.append_nil _).symm
  | cancelTask id =>
    unfold ClientCall.url ClientCall.tasksPath segments queryText
    rw [htwo, List.append_assoc]
    exact (List.append_nil _).symm
  | retryTask id =>
    unfold ClientCall.url ClientCall.tasksPath segments queryText
    rw [htwo, List.append_assoc]
    exact (List.append_nil _).symm
  | taskEvents id after =>
    cases after with
    | none =>
      unfold ClientCall.url ClientCall.tasksPath segments queryText
      rw [htwo, List.append_assoc]
      exact (List.append_nil _).symm
    | some after =>
      unfold ClientCall.url ClientCall.tasksPath segments queryText
      rw [htwo]
      show "/api/tasks/".toList ++ encodeURIComponent id ++ "/events?".toList ++ _ = _
      rw [List.append_assoc, List.append_assoc, List.append_assoc, List.append_assoc]
      rfl
  | _ => rfl

section
variable {call : ClientCall} {parts : Parts} {text : String}

theorem mem_intercalate {sep c : Char} {ls : List (List Char)} (h : c ∈ [sep].intercalate ls) :
    c = sep ∨ ∃ s ∈ ls, c ∈ s := by
  induction ls with
  | nil => cases h
  | cons l ls ih =>
    cases ls with
    | nil =>
      rw [List.intercalate_singleton] at h
      exact .inr ⟨l, List.mem_cons_self, h⟩
    | cons l' ls =>
      rw [List.intercalate_cons_cons, List.append_assoc, List.mem_append, List.mem_append,
        List.mem_singleton] at h
      rcases h with h | h | h
      · exact .inr ⟨l, List.mem_cons_self, h⟩
      · exact .inl h
      · exact (ih h).imp_right fun ⟨s, hs, hc⟩ => ⟨s, List.mem_cons_of_mem _ hs, hc⟩

theorem path_plain (call : ClientCall) :
    ∀ c ∈ ['/'].intercalate (segments call), decide (c ≠ '?') = true := by
  rintro c hc
  refine decide_eq_true ?_
  rintro rfl
  rcases mem_intercalate hc with hc | ⟨s, hs, hc⟩
  · exact absurd hc (by decide)
  · exact (segments_plain call s hs).2 hc

theorem takeWhile_url (call : ClientCall) :
    call.url.takeWhile (· ≠ '?') = ['/'].intercalate (segments call) := by
  rw [url_eq, List.takeWhile_append_of_pos (path_plain call)]
  cases queryText call <;> simp

theorem dropWhile_url (call : ClientCall) :
    (call.url.dropWhile (· ≠ '?')).tail? = queryText call := by
  rw [url_eq, List.dropWhile_append_of_pos (path_plain call)]
  cases queryText call <;> simp

/-- The router reads the segments of the call. -/
theorem pathSegments_sent (h : Sent call parts text) : pathSegments parts = segments call := by
  unfold pathSegments
  rw [h.path, takeWhile_url]
  refine List.splitOn_intercalate _ (fun s hs => (segments_plain call s hs).1) ?_
  cases call <;> simp [segments]

/-- And what was put in the query. -/
theorem queryValue_sent (h : Sent call parts text) {name : String} {value : List Char}
    (hquery : queryText call = some (searchParams name value)) (hname : Clean name.toList)
    (hequals : '=' ∉ name.toList) (hvalue : Clean value) (hne : value ≠ []) :
    queryValue parts.query name = .ok (some value) := by
  have hsent := h.query
  rw [dropWhile_url, hquery, searchParams_of_clean hname hvalue] at hsent
  obtain ⟨query, hq, htext⟩ := Option.map_eq_some_iff.1 hsent
  have hone : '&' ∉ name.toList ++ '=' :: value := by
    intro hmem
    rcases List.mem_append.1 hmem with hmem | hmem
    · exact hname.ampersand hmem
    · rcases List.mem_cons.1 hmem with hmem | hmem
      · exact absurd hmem (by decide)
      · exact hvalue.ampersand hmem
  have hsplit : splitOnce '=' (name.toList ++ '=' :: value) = some (name.toList, value) := by
    have hpos : ∀ c ∈ name.toList, decide (c ≠ '=') = true :=
      fun c hc => decide_eq_true fun heq => hequals (heq ▸ hc)
    unfold splitOnce
    rw [List.dropWhile_append_of_pos hpos, List.takeWhile_append_of_pos hpos]
    simp
  unfold queryValue
  rw [hq]
  simp only
  rw [htext, List.splitOn_eq_singleton hone]
  unfold queryPairs
  rw [hsplit]
  simp [hne, queryPairs]

/-! ## The operation -/

theorem uuid_text_ne_empty (uuid : Uuid) : uuid.text ≠ "" := by
  intro h
  have hlength := congrArg (fun text => text.toList.length) h
  simp [Uuid.text, UuidText.format_length] at hlength

theorem encodeURIComponent_uuid (uuid : Uuid) :
    encodeURIComponent uuid.text = uuid.text.toList := encodeURIComponent_of_clean (clean_uuid uuid)

theorem taskIdAt_sent (h : Sent call parts text) {id : TaskId}
    (hsegment : (segments call)[3]? = some (encodeURIComponent id.text)) :
    taskIdAt parts 3 = .ok id := by
  have hparse : ((segments call)[3]?.bind fun text => TaskId.parse (String.ofList text)) = some id := by
    rw [hsegment, Option.bind_some, TaskId.text, encodeURIComponent_uuid, String.ofList_toList]
    exact TaskId.parse_text id
  unfold taskIdAt
  rw [pathSegments_sent h, hparse]

theorem parseI64_toDigits {n : Nat} (h : n < 2 ^ 63) :
    parseI64 (Nat.toDigits 10 n) = some (n : Int) := by
  have hbelow : parseBelow (2 ^ 63) (Nat.toDigits 10 n) = some n := by
    unfold parseBelow
    rw [if_neg Nat.toDigits_ne_nil, readNumeral_toDigits, Option.filter_some,
      if_pos (decide_eq_true h)]
  have hdigit : ∀ {c : Char} {rest : List Char}, Nat.toDigits 10 n = c :: rest → c.isDigit = true := by
    intro c rest heq
    exact Json.isDigit_toDigits (heq ▸ List.mem_cons_self)
  unfold parseI64
  split
  · next heq => exact absurd (hdigit heq) (by decide)
  · next heq => exact absurd (hdigit heq) (by decide)
  · rw [hbelow]
    rfl

theorem queryValue_none (h : Sent call parts text) (hquery : queryText call = none) (name : String) :
    queryValue parts.query name = .ok none := by
  have hsent := h.query
  rw [dropWhile_url, hquery, Option.map_eq_none_iff] at hsent
  rw [hsent]
  rfl

theorem afterQuery_eq {value : Option (List Char)} {after : Int}
    (h : queryValue parts.query "after" = .ok value)
    (hparse : parseI64 (value.getD ['0']) = some after) (hafter : 0 ≤ after) :
    afterQuery parts = .ok after := by
  unfold afterQuery
  rw [h]
  simp only [Bind.bind, Except.bind]
  rw [hparse]
  exact if_neg (by omega)

theorem afterQuery_none (h : Sent call parts text) (hquery : queryText call = none) :
    afterQuery parts = .ok 0 :=
  afterQuery_eq (queryValue_none h hquery "after") (by decide) (by omega)

theorem afterQuery_sent (h : Sent call parts text) {after : Nat} (hafter : after < 2 ^ 63)
    (hquery : queryText call = some (searchParams "after" (Nat.toDigits 10 after))) :
    afterQuery parts = .ok (after : Int) := by
  have hname : Clean "after".toList := clean_of_all (by decide)
  have hvalue := queryValue_sent h hquery hname (by decide) (clean_toDigits after)
    Nat.toDigits_ne_nil
  exact afterQuery_eq hvalue (parseI64_toDigits hafter) (by omega)

theorem repositoryFilter_none (h : Sent call parts text) (hquery : queryText call = none) :
    repositoryFilter parts = .ok none := by
  unfold repositoryFilter
  rw [queryValue_none h hquery]
  rfl

theorem repositoryFilter_sent (h : Sent call parts text) {id : RepositoryId}
    (hquery : queryText call = some (searchParams "repository_id" id.text.toList)) :
    repositoryFilter parts = .ok (some id) := by
  have hname : Clean "repository_id".toList := clean_of_all (by decide)
  have hne : id.text.toList ≠ [] := fun hnil =>
    uuid_text_ne_empty id.uuid (String.toList_eq_nil_iff.1 hnil)
  have hvalue := queryValue_sent h hquery hname (by decide) (clean_uuid id.uuid) hne
  have hparse : parseRepositoryId id.text.toList = .ok id := by
    unfold parseRepositoryId
    rw [String.ofList_toList, RepositoryId.parse_text]
  have hfilter : ∀ {value}, queryValue parts.query "repository_id" = .ok (some value) →
      repositoryFilter parts = (parseRepositoryId value).map some := by
    intro value hread
    unfold repositoryFilter
    rw [hread]
    rfl
  rw [hfilter hvalue, hparse]
  rfl

theorem operationOf_sent {op : Operation} (names : Names call op) (h : Sent call parts text) :
    operationOf parts text = some op := by
  have hsegments := pathSegments_sent h
  have hmethod := h.method
  unfold operationOf route
  rw [hsegments, hmethod]
  cases names with
  | bootstrap => simp [segments, ClientCall.method, mutationOf]
  | listRepositories => simp [segments, ClientCall.method, mutationOf]
  | pickRepository => simp [segments, ClientCall.method, mutationOf]
  | quit => simp [segments, ClientCall.method, mutationOf]
  | addRepository path =>
    simp [segments, ClientCall.method, mutationOf, AddRepositoryRequest.fromStr_eq (h.body _ rfl),
      AddRepositoryRequest.deserialize, Serde.fields, Serde.member, readText]
  | createTask clientRequestId repositoryId prompt =>
    simp [segments, ClientCall.method, mutationOf, CreateTaskRequest.fromStr_eq (h.body _ rfl),
      CreateTaskRequest.deserialize, Serde.fields, Serde.member, readText]
  | taskDetail id =>
    simp [segments, ClientCall.method, mutationOf, encodeURIComponent_uuid, TaskId.text,
      uuid_text_ne_empty, taskIdAt_sent h rfl, Except.toOption]
  | cancelTask id =>
    simp [segments, ClientCall.method, mutationOf, encodeURIComponent_uuid, TaskId.text,
      uuid_text_ne_empty, taskIdAt_sent h rfl, Except.toOption]
  | retryTask id =>
    simp [segments, ClientCall.method, mutationOf, encodeURIComponent_uuid, TaskId.text,
      uuid_text_ne_empty, taskIdAt_sent h rfl, Except.toOption]
  | listTasks =>
    simp [segments, ClientCall.method, mutationOf, repositoryFilter_none h rfl, Except.toOption]
  | listTasksOf id =>
    simp [segments, ClientCall.method, mutationOf, repositoryFilter_sent h rfl, Except.toOption]
  | taskEvents id =>
    simp [segments, ClientCall.method, mutationOf, encodeURIComponent_uuid, TaskId.text,
      uuid_text_ne_empty, taskIdAt_sent h rfl, afterQuery_none h rfl, Except.toOption]
  | taskEventsAfter id after hafter =>
    have hread : afterQuery parts = .ok (after : Int) :=
      afterQuery_sent h (Nat.lt_of_lt_of_le hafter (by decide)) rfl
    simp [segments, ClientCall.method, mutationOf, encodeURIComponent_uuid, TaskId.text,
      uuid_text_ne_empty, taskIdAt_sent h rfl, hread, Except.toOption]

/-! ## The router -/

/-- Answers with which a request passes every check of the process. -/
structure AcceptingRuntime (answer : (q : RuntimeCall) → Option (RuntimeAnswer q)) (parts : Parts)
    (text : String) (auth : AuthContext) : Prop where
  api : Accepting (fun q => answer (.api q)) parts text auth
  phase : answer .phase = some .ready

variable {answer : (q : RuntimeCall) → Option (RuntimeAnswer q)} {auth : AuthContext}
  {op : Operation}

theorem yields_chooseRuntimeRequestId (h : AcceptingRuntime answer parts text auth)
    (headers : HeaderMap) : ∃ id, Yields answer (chooseRuntimeRequestId headers) id := by
  unfold chooseRuntimeRequestId
  split
  · exact ⟨_, yields_pure _⟩
  · obtain ⟨uuid, huuid⟩ := Option.isSome_iff_exists.1 h.api.newV4
    exact ⟨uuid.text, Yields.bind (yields_call huuid) (yields_pure _)⟩

theorem path_of_route {r : Route} (h : route parts = some r) :
    parts.path ≠ localReadyPath ∧ parts.path ≠ localReopenPath := by
  have hnone : ∀ path, parts.path = path → path = localReadyPath ∨ path = localReopenPath →
      route parts = none := by
    intro path hpath hlocal
    unfold route pathSegments
    rw [hpath]
    rcases hlocal with rfl | rfl <;> rfl
  constructor <;> intro hpath
  · rw [hnone _ hpath (.inl rfl)] at h
    cases h
  · rw [hnone _ hpath (.inr rfl)] at h
    cases h

theorem reaches_runtimeRouter (env : RuntimeState) (h : AcceptingRuntime answer parts text auth)
    {r : Route} {handling : Handling Response} {query : Call} (hroute : route parts = some r)
    (hhandler : handler parts r = some handling)
    (hreaches : Reaches (fun q => answer (.api q)) handling.run query) :
    Reaches answer (runtimeRouter env parts) (.api query) := by
  obtain ⟨id, hid⟩ := yields_chooseRuntimeRequestId h parts.headers
  obtain ⟨hready, hreopen⟩ := path_of_route hroute
  have hroutes : Reaches answer (runtimeRoutes env parts id) (.api query) := by
    unfold runtimeRoutes
    rw [if_neg hready, if_neg hreopen, hroute]
    refine reaches_lift ?_
    have hsame : (fun q => (answer (apiEmbedding.query q)).map (apiEmbedding.answer q)) =
        fun q => answer (.api q) := by
      funext q
      exact congrFun Option.map_id (answer (.api q))
    rw [hsame]
    exact reaches_apiRouter h.api hroute hhandler hreaches
  unfold runtimeRouter
  refine Yields.reaches hid (reaches_of_first ?_)
  unfold guarded
  refine Yields.reaches (yields_call h.api.host) (Yields.reaches (yields_call h.phase) ?_)
  rw [if_neg (by simp)]
  exact hroutes

theorem reaches_operation (env : RuntimeState) (h : AcceptingRuntime answer parts text auth)
    (hop : operationOf parts text = some op) :
    Reaches answer (runtimeRouter env parts) (.api (.backend auth op)) := by
  obtain ⟨r, handling, hroute, hhandler, hreaches⟩ := reaches_handler h.api hop
  exact reaches_runtimeRouter env h hroute hhandler hreaches

theorem mem_apiPast {past : RuntimePast} {c : Asked Call Answer} (h : c ∈ apiPast past) :
    ⟨.api c.query, c.answer⟩ ∈ past := by
  unfold apiPast at h
  obtain ⟨d, hd, heq⟩ := List.mem_filterMap.1 h
  obtain ⟨query, result⟩ := d
  cases query with
  | api call =>
    obtain rfl := Option.some.inj heq
    exact hd
  | _ => cases heq

/-- Whatever is answered, no other operation is asked for. -/
theorem operationOf_asked {env : RuntimeState} {past : RuntimePast}
    (h : (runtimeRouter env parts).Asks past (.api (.backend auth op)))
    (hbody : ∀ read, ⟨.api .body, some (.ok read)⟩ ∈ past → read = text) :
    operationOf parts text = some op := by
  obtain ⟨-, hauthority⟩ := (runtimeRouter_ensures env parts).asks h
  exact operationOf_of_requests hauthority.requested hauthority.method fun read hread =>
    hbody read (mem_apiPast hread)

/-- **A request that is accepted is its operation.** Against answers with
which it passes every check, the router asks for the operation of the request,
for the session of the request, and for no other. -/
theorem router_asks_exactly (env : RuntimeState) (h : AcceptingRuntime answer parts text auth)
    (session : AuthContext) (op : Operation) :
    Reaches answer (runtimeRouter env parts) (.api (.backend session op)) ↔
      session = auth ∧ operationOf parts text = some op := by
  constructor
  · rintro ⟨past, hpast, hasks⟩
    constructor
    · obtain ⟨-, hauthority⟩ := (runtimeRouter_ensures env parts).asks hasks
      have hauthorized := hauthority.authorized
      unfold Authorized at hauthorized
      split at hauthorized
      · have hanswer := hpast _ (mem_apiPast hauthorized)
        have := hanswer.trans h.api.mutation
        simpa using this
      · have hanswer := hpast _ (mem_apiPast hauthorized)
        have := hanswer.trans h.api.read
        simpa using this
    · refine operationOf_asked hasks fun read hread => ?_
      have := (hpast _ hread).trans h.api.body
      simpa using this
  · rintro ⟨rfl, hop⟩
    exact reaches_operation env h hop

/-- **A request of the client is the operation it names.** No run asks for
another, whatever is answered, and one that passes the checks asks for it. -/
theorem sent_operation {call : ClientCall} {parts : Parts} {text : String} {op : Operation}
    (names : Names call op) (sent : Sent call parts text) (env : RuntimeState) :
    (∀ past session op', (runtimeRouter env parts).Asks past (.api (.backend session op')) →
      (∀ read, ⟨.api .body, some (.ok read)⟩ ∈ past → read = text) → op' = op) ∧
    ∀ answer auth, AcceptingRuntime answer parts text auth →
      Reaches answer (runtimeRouter env parts) (.api (.backend auth op)) := by
  have hop := operationOf_sent names sent
  constructor
  · intro past session op' hasks hbody
    exact Option.some.inj ((operationOf_asked hasks hbody).symm.trans hop)
  · intro answer auth haccept
    exact reaches_operation env haccept hop

/-- The request of a client that has this launch token exchanges it: no run
exchanges another, and one that passes the checks does. -/
theorem sent_exchange {token : String} {parts : Parts} {text : String}
    (sent : Sent (.exchange token) parts text) (env : RuntimeState) :
    (∀ past parts' token', (runtimeRouter env parts).Asks past (.api (.exchange parts' token')) →
      (∀ read, ⟨.api .body, some (.ok read)⟩ ∈ past → read = text) →
        parts' = parts ∧ token' = token) ∧
    ∀ answer auth, AcceptingRuntime answer parts text auth →
      Reaches answer (runtimeRouter env parts) (.api (.exchange parts token)) := by
  have hread : SessionExchangeRequest.fromStr text = some { token } :=
    SessionExchangeRequest.fromStr_eq (sent.body _ rfl)
  constructor
  · intro past parts' token' hasks hbody
    obtain ⟨-, rfl, hauthority⟩ := (runtimeRouter_ensures env parts).asks hasks
    obtain ⟨read, hmem, hrequest⟩ := hauthority.requested.2
    rw [hbody read (mem_apiPast hmem), hread] at hrequest
    exact ⟨rfl, (congrArg SessionExchangeRequest.token (Option.some.inj hrequest)).symm⟩
  · intro answer auth haccept
    have hroute : route parts = some .exchangeSession := by
      unfold route
      rw [pathSegments_sent sent]
      simp [segments]
    have hhandler : handler parts .exchangeSession = some (exchangeSession parts) := by
      unfold handler
      rw [sent.method]
      rfl
    refine reaches_runtimeRouter env haccept hroute hhandler ?_
    exact reaches_decode haccept.api hread (reaches_attempt (reaches_call (Call.exchange parts token)))

end

/-! ## A request -/

/-- Every check is passed. -/
def acceptingAnswer (text : String) : (q : RuntimeCall) → Option (RuntimeAnswer q)
  | .api .body => some (.ok text)
  | q => sampleAnswer q

theorem acceptingRuntime (text : String) (parts : Parts) :
    AcceptingRuntime (acceptingAnswer text) parts text ⟨"session"⟩ where
  api := ⟨rfl, rfl, rfl, rfl, rfl⟩
  phase := rfl

theorem router_asks_exactly_cancel :
    Reaches (acceptingAnswer "") (runtimeRouter sampleState sampleCancel)
      (.api (.backend ⟨"session"⟩ (.cancelTask ⟨10⟩))) :=
  (router_asks_exactly sampleState (acceptingRuntime "" sampleCancel) _ _).2
    ⟨rfl, by decide +kernel⟩

def sampleCreate : Parts where
  method := .post
  path := "/api/tasks"
  query := none
  headers := []

def sampleDocument : Json :=
  .object [("client_request_id", .string (ClientRequestId.text ⟨1⟩)),
    ("repository_id", .string (RepositoryId.text ⟨2⟩)), ("prompt", .string "fix")]

theorem sampleCreate_sent :
    Sent (.createTask ⟨ClientRequestId.text ⟨1⟩, RepositoryId.text ⟨2⟩, "fix"⟩) sampleCreate
      (Serde.toText sampleDocument) where
  method := rfl
  path := by decide +kernel
  query := by decide +kernel
  body document h := by
    obtain rfl := Option.some.inj h
    refine Serde.fromStr_toText (d := 1) ?_ (by decide)
    intro m hm
    simp only [List.mem_cons, List.not_mem_nil, or_false] at hm
    rcases hm with rfl | rfl | rfl <;> trivial

theorem sent_operation_create :
    Reaches (acceptingAnswer (Serde.toText sampleDocument)) (runtimeRouter sampleState sampleCreate)
      (.api (.backend ⟨"session"⟩ (.createTask ⟨⟨1⟩, ⟨2⟩, "fix"⟩))) :=
  (sent_operation (.createTask ⟨1⟩ ⟨2⟩ "fix") sampleCreate_sent sampleState).2 _ _
    (acceptingRuntime _ sampleCreate)

end CodingAgent.L5.Web.Client
