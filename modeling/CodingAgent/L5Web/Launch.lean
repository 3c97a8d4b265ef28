import CodingAgent.L4App.Authenticated
import CodingAgent.L4App.Secondary
import CodingAgent.L5Web.ApiAgreement

/-!
# From a grant to a session

The way of a launch token: the primary issues it and answers `/_local/reopen`
(`coding-agent-app/src/server.rs`), the second launch reads the grant, checks it
and opens the browser (`single_instance.rs`, `local_client.rs`), and the client
takes it out of the URL and exchanges it (`web/src/api/client.ts`).

* `readLaunchToken_browserUrl`: the client reads the token that was opened.
* `granted_framed`: the second launch reads what was answered, in any frames.
* `launch_handshake`: the whole way, for every token.
-/
namespace CodingAgent.L5.Web.Client
open L1.Domain L3.Api.Http L3.Api.Router L4.App L4.App.Runtime L4.App.Secondary Descriptor Program
open Base64 (urlSafeNoPad)

/-! ## The token in a URL -/

/-- A character that stands for itself in a query. -/
structure Literal (c : Char) : Prop where
  plus : c ≠ '+'
  ampersand : c ≠ '&'
  byte : ∀ b ∈ String.utf8EncodeChar c, b ≠ 37

def isLiteral (c : Char) : Bool :=
  c ≠ '+' && c ≠ '&' && (String.utf8EncodeChar c).all fun b => b ≠ 37

theorem literal_of_isLiteral {c : Char} (h : isLiteral c = true) : Literal c := by
  simp only [isLiteral, Bool.and_eq_true, decide_eq_true_eq, List.all_eq_true] at h
  exact ⟨h.1.1, h.1.2, h.2⟩

theorem literal_charOf {v : Nat} (h : v < 64) : Literal (Base64.charOf v) := by
  have hall : ∀ v : Fin 64, isLiteral (Base64.charOf v) = true := by decide
  exact literal_of_isLiteral (hall ⟨v, h⟩)

theorem percentDecode_of_ne {bytes : List UInt8} (h : ∀ b ∈ bytes, b ≠ 37) :
    percentDecode bytes = bytes := by
  induction bytes with
  | nil => rfl
  | cons b rest ih =>
    rw [percentDecode.eq_def]
    simp only
    rw [if_pos (h b List.mem_cons_self), ih fun c hc => h c (List.mem_cons_of_mem _ hc)]

theorem decodeComponent_literal {cs : List Char} (h : ∀ c ∈ cs, Literal c) :
    decodeComponent cs = cs := by
  have hmap : (cs.map fun c => if c = '+' then ' ' else c) = cs := by
    refine (List.map_congr_left fun c hc => ?_).trans (List.map_id cs)
    exact if_neg (h c hc).plus
  unfold decodeComponent
  rw [hmap, percentDecode_of_ne, Utf8.lossy_encode]
  intro b hb
  obtain ⟨c, hc, hb⟩ := List.mem_flatMap.1 hb
  exact (h c hc).byte b hb

/-- The part of a URL from its `#` on. -/
def fragment (url : String) : String := String.ofList (url.toList.dropWhile (· ≠ '#'))

theorem readLaunchToken_literal {token : String} (h : ∀ c ∈ token.toList, Literal c) :
    readLaunchToken ("#token=" ++ token) = some token := by
  have hlist : ("#token=" ++ token).toList = '#' :: ("token".toList ++ '=' :: token.toList) := by
    rw [String.toList_append]
    rfl
  have hne : "#token=" ++ token ≠ "" := by
    intro heq
    rw [heq] at hlist
    cases hlist
  have hone : '&' ∉ "token".toList ++ '=' :: token.toList := by
    intro hmem
    rcases List.mem_append.1 hmem with hmem | hmem
    · exact absurd hmem (by decide +kernel)
    · rcases List.mem_cons.1 hmem with hmem | hmem
      · exact absurd hmem (by decide)
      · exact (h _ hmem).ampersand rfl
  have hname : ∀ c ∈ "token".toList, decide (c ≠ '=') = true := by simp
  have hkey : ∀ c ∈ "token".toList, Literal c := by
    have hall : "token".toList.all isLiteral = true := by decide
    exact fun c hc => literal_of_isLiteral (List.all_eq_true.1 hall c hc)
  have hpairs : searchPairs ("token".toList ++ '=' :: token.toList) =
      [("token".toList, token.toList)] := by
    have hfilter : [("token".toList ++ '=' :: token.toList)].filter (fun pair => pair ≠ []) =
        ["token".toList ++ '=' :: token.toList] := by simp
    unfold searchPairs
    simp only
    rw [if_neg (by simp), List.splitOn_eq_singleton hone, hfilter, List.map_singleton,
      List.takeWhile_append_of_pos hname, List.dropWhile_append_of_pos hname]
    simp only [List.takeWhile_cons, List.dropWhile_cons, ne_eq, not_true_eq_false, decide_false,
      Bool.false_eq_true, if_false, List.append_nil, List.tail_cons]
    rw [decodeComponent_literal h, decodeComponent_literal hkey]
  unfold readLaunchToken
  rw [if_neg hne, hlist]
  simp only [List.head?_cons, if_true, List.tail_cons]
  rw [hpairs]
  simp

theorem toList_toString (n : Nat) : (toString n).toList = Nat.toDigits 10 n := by
  rw [Nat.toString_eq_repr, Nat.repr_eq_ofList_toDigits, String.toList_ofList]

/-- The client reads the token the browser was opened with. -/
theorem readLaunchToken_browserUrl (port : Nat) {token : String}
    (h : ∀ c ∈ token.toList, Literal c) :
    readLaunchToken (fragment (browserUrl port token)) = some token := by
  have hbefore : ∀ c ∈ ("http://127.0.0.1:" ++ toString port ++ "/").toList,
      decide (c ≠ '#') = true := by
    intro c hc
    have hfixed : ∀ c ∈ "http://127.0.0.1:".toList ++ "/".toList, decide (c ≠ '#') = true := by
      simp
    rw [String.toList_append, String.toList_append, toList_toString, List.mem_append,
      List.mem_append] at hc
    rcases hc with (hc | hc) | hc
    · exact hfixed c (List.mem_append_left _ hc)
    · obtain ⟨d, hd, rfl⟩ := mem_toDigits hc
      have hdigit : ∀ d : Fin 16, decide (d.val.digitChar ≠ '#') = true := by decide
      exact hdigit ⟨d, hd⟩
    · exact hfixed c (List.mem_append_right _ hc)
  have hsplit : browserUrl port token =
      ("http://127.0.0.1:" ++ toString port ++ "/") ++ ("#token=" ++ token) := by
    unfold browserUrl
    rw [show "/#token=" = "/" ++ "#token=" from rfl]
    simp only [String.append_assoc]
  have hfragment : fragment (browserUrl port token) = "#token=" ++ token := by
    unfold fragment
    rw [hsplit, String.toList_append, List.dropWhile_append_of_pos hbefore]
    have hstart : ("#token=" ++ token).toList.dropWhile (· ≠ '#') = ("#token=" ++ token).toList := by
      rw [String.toList_append]
      rfl
    rw [hstart, String.ofList_toList]
  rw [hfragment, readLaunchToken_literal h]

/-! ## The grant -/

theorem stripPrefix_append (start rest : String) : stripPrefix (start ++ rest) start = some rest := by
  unfold stripPrefix
  rw [if_pos (by simp [String.toList_append]), String.toList_append, List.drop_left,
    String.ofList_toList]

theorem browserUrl_append (port : Nat) (token : String) :
    browserUrl port token = browserUrl port "" ++ token := by
  unfold browserUrl
  rw [String.append_empty]

/-- A grant of the last seconds is accepted; the deadline it reports and those
it is checked against stop at the same instant. -/
theorem validateReopenGrant_fresh {port : Nat} {bytes : List UInt8} {issued now : Int}
    {expiresAt : UtcTimestamp} (hbytes : bytes.length = launcherSecretBytes)
    (hexpires : reopenDeadline issued = .ok expiresAt) (hearly : issued - 10 ^ 9 ≤ now)
    (hlate : now ≤ issued + 10 * 10 ^ 9) :
    validateReopenGrant { url := browserUrl port (urlSafeNoPad.encode bytes), expiresAt } now port =
      some (urlSafeNoPad.encode bytes) := by
  have hnanos : expiresAt.nanos = min (issued + tokenLifetime) maxNanos := by
    unfold reopenDeadline UtcTimestamp.new at hexpires
    split at hexpires
    · obtain rfl := Except.ok.inj hexpires
      rfl
    · cases hexpires
  have hvalid : validateLauncherSecret (urlSafeNoPad.encode bytes) = .ok () :=
    validateLauncherSecret_eq_ok.2 ⟨bytes, hbytes, rfl⟩
  have hfresh : ¬(expiresAt.nanos < saturatingAdd now 110 ∨ saturatingAdd now 121 < expiresAt.nanos) := by
    rw [hnanos]
    unfold saturatingAdd tokenLifetime
    omega
  unfold validateReopenGrant
  simp only
  rw [browserUrl_append port (urlSafeNoPad.encode bytes), stripPrefix_append]
  simp only [Option.bind_eq_bind, Option.bind_some]
  rw [if_pos hvalid, ← browserUrl_append, if_neg (not_not.2 rfl), if_neg hfresh]

/-! ## A response on its way to the second launch -/

/-- The bytes of a body; a stream has no end. -/
def bodyBytes : Body → Option (List UInt8)
  | .empty => some []
  | .json value | .quit value => some (Utf8.encode (Serde.toText value).toList)
  | .bytes value => some value
  | .events _ => none

/-- The bytes arrive in these frames. -/
inductive Framed : List UInt8 → List Frame → Prop
  | nil : Framed [] []
  | data (part : List UInt8) {bytes : List UInt8} {frames : List Frame} :
    Framed bytes frames → Framed (part ++ bytes) (.data part :: frames)
  | trailers {bytes : List UInt8} {frames : List Frame} :
    Framed bytes frames → Framed bytes (.trailers :: frames)

/-- However it is cut, a body that is not too long is read whole. -/
theorem readBody_framed {bytes read : List UInt8} {frames : List Frame} (h : Framed bytes frames)
    (hlength : read.length + bytes.length ≤ maxResponseBodyBytes) :
    readBody read frames = .ok (read ++ bytes) := by
  induction h generalizing read with
  | nil => simp [readBody]
  | data part _ ih =>
    rw [List.length_append] at hlength
    rw [readBody, if_neg (by omega), ih (by rw [List.length_append]; omega), List.append_assoc]
  | trailers _ ih => rw [readBody, ih hlength]

/-- What is read of a body that is not too long. -/
theorem granted_framed {T : Type} {decode : List UInt8 → Outcome (Option T)} {bytes : List UInt8}
    {frames : List Frame} (h : Framed bytes frames) (hlength : bytes.length ≤ maxResponseBodyBytes) :
    granted decode (.ok (200, frames)) = decode bytes := by
  have hread : readBody [] frames = .ok bytes :=
    readBody_framed h (by rw [List.length_nil, Nat.zero_add]; exact hlength)
  unfold granted decodeResponse
  simp only
  rw [if_neg (not_not.2 rfl), hread]
  simp only
  cases decode bytes with
  | panicked => rfl
  | returned result => cases result <;> rfl

/-- A document of two texts. -/
def pair (name text name' text' : String) : Json :=
  .object [(name, .string text), (name', .string text')]

theorem fits_pair (name text name' text' : String) :
    Serde.Fits 1 (pair name text name' text') := by
  intro m hm
  simp only [List.mem_cons, List.not_mem_nil, or_false] at hm
  rcases hm with rfl | rfl <;> trivial

/-- It is read if the texts are short. -/
theorem granted_pair {T : Type} {decode : List UInt8 → Outcome (Option T)}
    {name name' text text' : String} {frames : List Frame} (h : Framed (Utf8.encode (Serde.toText
      (pair name text name' text')).toList) frames)
    (hlength : name.length + text.length + name'.length + text'.length ≤ 160) :
    granted decode (.ok (200, frames)) =
      decode (Utf8.encode (Serde.toText (pair name text name' text')).toList) := by
  refine granted_framed h ?_
  have hencoded := Utf8.encode_length_le (Serde.toText (pair name text name' text')).toList
  have hname := Json.printString_length_le name
  have htext := Json.printString_length_le text
  have hname' := Json.printString_length_le name'
  have htext' := Json.printString_length_le text'
  rw [Serde.toText, String.toList_ofList] at hencoded ⊢
  simp only [pair, Json.print, Json.printMembers, List.length_cons, List.length_append,
    List.length_nil] at hencoded ⊢
  unfold maxResponseBodyBytes
  omega

theorem fromSlice_pair (name text name' text' : String) :
    fromSlice (Utf8.encode (Serde.toText (pair name text name' text')).toList) =
      some (pair name text name' text') := by
  unfold fromSlice
  rw [Utf8.lossy_encode, if_pos rfl, String.ofList_toList,
    Serde.fromStr_toText (fits_pair name text name' text') (by decide)]

theorem browserUrl_length {port : Nat} {token : String} (h : port < 2 ^ 16) :
    (browserUrl port token).length ≤ 30 + token.length := by
  have hdigits : (toString port).length ≤ 5 := by
    rw [← String.length_toList, toList_toString]
    exact Nat.toDigits_length 10 _ 5 (by omega) (by omega)
  unfold browserUrl
  have hfixed : "http://127.0.0.1:".length = 17 ∧ "/#token=".length = 8 := by decide +kernel
  rw [String.length_append, String.length_append, String.length_append, hfixed.1, hfixed.2]
  omega

theorem readyProbe_serialized {instanceId : Uuid} {phase : SingleInstance.StartupPhase} :
    ReadyProbe.fromSlice (Utf8.encode (Serde.toText (pair "instance_id" instanceId.text "state"
      (phaseDto phase))).toList) = .returned (some { instanceId, state := phase }) := by
  unfold ReadyProbe.fromSlice
  rw [fromSlice_pair]
  refine congrArg Outcome.returned ?_
  unfold ReadyProbe.deserialize exactFields pair
  cases phase <;> simp [Serde.fields, Serde.member, readUuid, Serde.unitVariant, phaseName, phaseDto]

/-- The reader of an object comes to all of its members. -/
theorem panics_of_parse {text tail : List Char} {members : List (String × Json)}
    (hskip : Json.skipBlank text = '{' :: tail) (hmembers : members ≠ [])
    (h : Json.parse text = some (.object members)) :
    ReopenGrant.panics text = ReopenGrant.membersPanic members := by
  obtain ⟨⟨v, rest⟩, hread, hend⟩ := Option.bind_eq_some_iff.1 h
  obtain ⟨-, heq⟩ := Option.ite_none_right_eq_some.1 hend
  obtain rfl := Option.some.inj heq
  rw [Json.readValue, hskip] at hread
  simp only at hread
  split at hread
  · cases hread
    exact absurd rfl hmembers
  · obtain ⟨⟨ms, rest'⟩, hms, heq⟩ := Option.map_eq_some_iff.1 hread
    cases heq
    unfold ReopenGrant.panics
    rw [hskip]
    simp only
    rw [Serde.metMembers_of_readMembers hms]

theorem timePanics_of_returned {v : Json}
    {result : Except UtcTimestamp.Conversion.DeserializeError UtcTimestamp}
    (h : readTime v = .returned result) : timePanics v = false := by
  rw [timePanics, h]

theorem membersPanic_pair (url : String) (v : Json) :
    ReopenGrant.membersPanic [("url", .string url), ("expires_at", v)] = timePanics v := rfl

theorem deserialize_grant {url : String} {v : Json} {expiresAt : UtcTimestamp}
    (h : readTime v = .returned (.ok expiresAt)) :
    ReopenGrant.deserialize (.object [("url", .string url), ("expires_at", v)]) =
      some { url, expiresAt } := by
  unfold ReopenGrant.deserialize exactFields
  simp [Serde.fields, Serde.member, h]

theorem reopenGrant_serialized (url : String) (expiresAt : UtcTimestamp) :
    ReopenGrant.fromSlice (Utf8.encode (Serde.toText (pair "url" url "expires_at"
      expiresAt.text)).toList) = .returned (some { url, expiresAt }) := by
  have htime : readTime (.string expiresAt.text) = .returned (.ok expiresAt) :=
    UtcTimestamp.Conversion.deserialize_of_returned (Descriptor.parseRfc3339_text expiresAt)
  have hparse : Json.parse (Serde.toText (pair "url" url "expires_at" expiresAt.text)).toList =
      some (pair "url" url "expires_at" expiresAt.text) := by
    rw [Serde.toText, String.toList_ofList]
    exact Json.parse_print (fits_pair _ _ _ _).plain
  have hskip : ∃ tail, Json.skipBlank
      (Serde.toText (pair "url" url "expires_at" expiresAt.text)).toList = '{' :: tail := by
    rw [Serde.toText, String.toList_ofList, pair, Json.print]
    exact ⟨_, Json.skipBlank_cons (by decide) _⟩
  obtain ⟨tail, hskip⟩ := hskip
  have hpanics : ReopenGrant.membersPanic
      [("url", .string url), ("expires_at", .string expiresAt.text)] = false :=
    (membersPanic_pair url _).trans (timePanics_of_returned htime)
  unfold ReopenGrant.fromSlice
  rw [Utf8.validPrefix_encode, panics_of_parse hskip (List.cons_ne_nil _ _) hparse, hpanics,
    if_neg Bool.false_ne_true, fromSlice_pair, Option.bind_some, pair, deserialize_grant htime]

/-! ## The primary -/

section
variable (crates : Security.Crates) (config : Security.Config)

/-- A primary that is ready: its manager, what is in its descriptor, and the
answers of its ports when it issues this token. -/
structure ReadyPrimary (env : RuntimeState) (descriptor : RuntimeDescriptor) (issued : Int)
    (token : Security.Secret) (runtime : (q : RuntimeCall) → Option (RuntimeAnswer q)) : Prop where
  base64 : crates.base64 = urlSafeNoPad
  instanceId : env.instanceId = descriptor.instanceId
  publicOrigin : env.publicOrigin = config.publicOrigin
  port : config.hostPort.port = descriptor.port.get.toNat
  launcherSecret : ∃ secret : Security.Secret,
    descriptor.launcherSecret = urlSafeNoPad.encode secret.val
  validateHost : ∀ parts, runtime (.api (.validateHost parts)) =
    some ((Security.validateHost crates config (securityParts parts)).mapError securityError)
  authorizeLauncher : ∀ parts, runtime (.authorizeLauncher parts) =
    some ((authorizeLauncher crates config descriptor.launcherSecret (securityParts parts)).mapError
      securityError)
  newV4 : (runtime (.api .newV4)).isSome
  phase : runtime .phase = some .ready
  nowUtc : runtime .nowUtc = some issued
  issueLaunchToken : runtime .issueLaunchToken = some (some (urlSafeNoPad.encode token.val))

end

section
variable {crates : Security.Crates} {config : Security.Config} {env : RuntimeState}
  {descriptor : RuntimeDescriptor} {issued : Int} {token : Security.Secret}
  {runtime : (q : RuntimeCall) → Option (RuntimeAnswer q)}

theorem localRequest_host (h : ReadyPrimary crates config env descriptor issued token runtime)
    (method : Method) (path : String) :
    Security.Carries (securityParts (localRequest descriptor method path)) "host"
      config.expectedHost := by
  unfold Security.Carries Security.Config.expectedHost Security.LoopbackPort.authority
  rw [h.port]
  rfl

/-- The manager accepts the requests of a launch that has read the descriptor. -/
theorem localRequest_authorized (h : ReadyPrimary crates config env descriptor issued token runtime)
    (method : Method) (path : String) :
    runtime (.api (.validateHost (localRequest descriptor method path))) = some (.ok ()) ∧
      runtime (.authorizeLauncher (localRequest descriptor method path)) = some (.ok ()) := by
  have hhost := localRequest_host h method path
  obtain ⟨secret, hsecret⟩ := h.launcherSecret
  rw [h.validateHost, h.authorizeLauncher, Security.validateHost_eq_ok.2 hhost, hsecret, ← h.base64,
    authorizeLauncher_eq_ok.2 ⟨hhost, ?_⟩]
  · exact ⟨rfl, rfl⟩
  · rw [h.base64, ← hsecret]
    rfl

/-- What the primary answers a local request with. -/
theorem yields_local (h : ReadyPrimary crates config env descriptor issued token runtime)
    {method : Method} {path : String} {document : Json}
    (hroutes : ∀ id, Yields runtime
      (runtimeRoutes env (localRequest descriptor method path) id) (.json 200 document)) :
    ∃ response, Yields runtime (runtimeRouter env (localRequest descriptor method path)) response ∧
      response.status = 200 ∧ response.body = .json document := by
  obtain ⟨uuid, huuid⟩ := Option.isSome_iff_exists.1 h.newV4
  have hguarded : Yields runtime
      (guarded env (localRequest descriptor method path) uuid.text) (.json 200 document) := by
    unfold guarded
    refine Yields.bind (yields_call (localRequest_authorized h method path).1)
      (Yields.bind (yields_call h.phase) ?_)
    rw [if_neg (by simp)]
    exact hroutes uuid.text
  have hid : Yields runtime
      (chooseRuntimeRequestId (localRequest descriptor method path).headers) uuid.text :=
    Yields.bind (yields_call huuid) (yields_pure _)
  have hnamed : (withRequestId uuid.text (.json 200 document)).status = 200 ∧
      (withRequestId uuid.text (.json 200 document)).body = .json document := by
    unfold withRequestId
    split <;> exact ⟨rfl, rfl⟩
  exact ⟨_, Yields.bind hid (Yields.bind hguarded (yields_pure _)), hnamed⟩

theorem yields_localReady (h : ReadyPrimary crates config env descriptor issued token runtime) :
    ∃ response, Yields runtime (runtimeRouter env (localRequest descriptor .get readyPath)) response ∧
      response.status = 200 ∧ response.body = .json (.object
        [("instance_id", .string descriptor.instanceId.text), ("state", .string "ready")]) := by
  have hauthorized := (localRequest_authorized h .get readyPath).2
  rw [← h.instanceId]
  refine yields_local h fun id => ?_
  exact Yields.bind (yields_call hauthorized) (Yields.bind (yields_call h.phase) (yields_pure _))

/-- The grant is of the token that the manager issued meanwhile. -/
theorem yields_localReopen (h : ReadyPrimary crates config env descriptor issued token runtime)
    {expiresAt : UtcTimestamp} (hexpires : reopenDeadline issued = .ok expiresAt) :
    ∃ response, Yields runtime (runtimeRouter env (localRequest descriptor .post reopenPath)) response ∧
      response.status = 200 ∧ response.body = .json (.object
        [("url", .string (reopenUrl env (urlSafeNoPad.encode token.val))),
          ("expires_at", .string expiresAt.text)]) := by
  have hauthorized := (localRequest_authorized h .post reopenPath).2
  refine yields_local h fun id => ?_
  refine Yields.bind (yields_call hauthorized) (Yields.bind (yields_call h.phase) ?_)
  rw [if_neg (by simp)]
  refine Yields.bind (yields_call h.nowUtc) ?_
  rw [hexpires]
  exact Yields.bind (yields_call h.issueLaunchToken) (yields_pure _)

/-! ## The second launch -/

/-- The text of the origin of a primary on this port.
mirrors crates/coding-agent-app/src/single_instance.rs:847-862 -/
def publicOriginOf : StartupPublicOrigin → Nat → String
  | .listener, port => "http://127.0.0.1:" ++ toString port
  | .development publicOrigin, _ => publicOrigin

/-- The environment of a second launch: the descriptor, and the responses of
that primary, in any frames. -/
structure FindsPrimary (env : RuntimeState) (descriptor : RuntimeDescriptor) (now : Int)
    (deadline : Nat) (runtime : (q : RuntimeCall) → Option (RuntimeAnswer q))
    (answer : (q : SecondaryCall) → Option (SecondaryAnswer q)) : Prop where
  readDescriptor : answer .readDescriptor = some (.returned (some descriptor))
  alive : answer (.processIsDead descriptor.pid) = some false
  carried : ∀ parts response bytes, Yields runtime (runtimeRouter env parts) response →
    bodyBytes response.body = some bytes → ∃ frames, Framed bytes frames ∧
      answer (.send descriptor.port parts deadline) = some (.ok (response.status, frames))
  nowUtc : answer .nowUtc = some now

theorem repr_inj {a b : Nat} (h : a.repr = b.repr) : a = b := by
  have hdigits := congrArg (fun text => Digits.readNumeral 10 text.toList) h
  simp only [Nat.toList_repr, readNumeral_toDigits] at hdigits
  exact Option.some.inj hdigits

/-- Both launches come to the port of the public origin. -/
theorem browserPort_of_publicOrigin {origin : StartupPublicOrigin} {port : Nat} (hport : port ≠ 0)
    (horigin : config.publicOrigin = publicOriginOf origin port) :
    origin.browserPort port = some config.originPort.port := by
  cases origin with
  | listener =>
    have hrepr : config.originPort.port.repr = port.repr := (String.append_right_inj _).1 horigin
    rw [repr_inj hrepr]
    exact if_pos hport
  | development publicOrigin =>
    obtain rfl : config.publicOrigin = publicOrigin := horigin
    have hread : Digits.readNumeral 10 (config.originPort.port.repr).toList =
        some config.originPort.port := by
      rw [Nat.toList_repr]
      exact readNumeral_toDigits _
    have htext : config.publicOrigin = "http://127.0.0.1:" ++ config.originPort.port.repr := rfl
    show canonicalLoopbackOriginPort config.publicOrigin = _
    unfold canonicalLoopbackOriginPort
    rw [htext, stripPrefix_append]
    simp only [Option.bind_eq_bind, Option.bind_some]
    rw [hread]
    exact if_pos ⟨config.originPort.nonzero, config.originPort.lt, rfl⟩

theorem yields_ask {T : Type} {answer : (q : SecondaryCall) → Option (SecondaryAnswer q)}
    {query : SecondaryCall} {a : SecondaryAnswer query} {f : SecondaryAnswer query → Round T}
    {result : Except RoundError T} (h : answer query = some a) (hf : Yields answer (f a).run result) :
    Yields answer (ask query >>= f).run result := by
  rw [ExceptT.run_bind]
  exact Yields.bind (Yields.bind (yields_call h) (yields_pure _)) hf

theorem yields_requireReturned {R T : Type} {answer : (q : SecondaryCall) → Option (SecondaryAnswer q)}
    {given : Outcome (Option R)} {a : R} {f : R → Round T} {result : Except RoundError T}
    (h : given = .returned (some a)) (hf : Yields answer (f a).run result) :
    Yields answer (requireReturned given >>= f).run result := by
  rw [ExceptT.run_bind, h]
  exact Yields.bind (yields_pure _) hf

theorem yields_require {R T : Type} {answer : (q : SecondaryCall) → Option (SecondaryAnswer q)}
    {given : Option R} {a : R} {f : R → Round T} {result : Except RoundError T} (h : given = some a)
    (hf : Yields answer (f a).run result) : Yields answer (require given >>= f).run result :=
  yields_requireReturned (congrArg Outcome.returned h) hf

theorem literal_encode {bytes : List UInt8} :
    ∀ c ∈ (urlSafeNoPad.encode bytes).toList, Literal c := by
  intro c hc
  have htext : (urlSafeNoPad.encode bytes).toList = Base64.encodeChars bytes := String.toList_ofList
  rw [htext] at hc
  obtain ⟨v, hv, rfl⟩ := Base64.mem_encodeChars hc
  exact literal_charOf hv

/-- **From a grant to a session.** A second launch that finds a ready primary
comes, in its first round, to the token the primary has just issued, whatever
the frames of the responses and the origin; the client reads that token from
the address the browser is opened with, and its request exchanges that token
and no other. -/
theorem launch_handshake {origin : StartupPublicOrigin} {deadline : Nat} {now : Int}
    {answer : (q : SecondaryCall) → Option (SecondaryAnswer q)}
    (primary : ReadyPrimary crates config env descriptor issued token runtime)
    (second : FindsPrimary env descriptor now deadline runtime answer)
    (horigin : config.publicOrigin = publicOriginOf origin descriptor.port.get.toNat)
    (hissued : minNanos ≤ issued) (hearly : issued - 10 ^ 9 ≤ now)
    (hlate : now ≤ issued + 10 * 10 ^ 9) :
    Yields answer (Secondary.round origin deadline).run (.ok
        { descriptor, browserPort := config.originPort.port, token := urlSafeNoPad.encode token.val }) ∧
      ∃ read, readLaunchToken
          (fragment (browserUrl config.originPort.port (urlSafeNoPad.encode token.val))) = some read ∧
        ∀ parts text, Sent (.exchange read) parts text →
          (∀ past parts' token', (runtimeRouter env parts).Asks past (.api (.exchange parts' token')) →
            (∀ body, ⟨.api .body, some (.ok body)⟩ ∈ past → body = text) →
              parts' = parts ∧ token' = urlSafeNoPad.encode token.val) ∧
          ∀ accepting auth, AcceptingRuntime accepting parts text auth →
            Reaches accepting (runtimeRouter env parts)
              (.api (.exchange parts (urlSafeNoPad.encode token.val))) := by
  refine ⟨?_, _, readLaunchToken_browserUrl _ literal_encode, fun _ _ sent => sent_exchange sent env⟩
  have hport := browserPort_of_publicOrigin
    (fun h => descriptor.port.ne_zero (UInt16.toNat_inj.1 h)) horigin
  obtain ⟨expiresAt, hexpires⟩ : ∃ expiresAt, reopenDeadline issued = .ok expiresAt := by
    unfold reopenDeadline UtcTimestamp.new
    rw [dif_pos]
    · exact ⟨_, rfl⟩
    · have hrange : minNanos ≤ maxNanos := by decide
      unfold tokenLifetime
      omega
  obtain ⟨ready, hready, hreadyStatus, hreadyBody⟩ := yields_localReady primary
  obtain ⟨readyFrames, hreadyFramed, hreadySent⟩ := second.carried _ _ _ hready
    (by rw [hreadyBody]; rfl)
  obtain ⟨reopen, hreopen, hreopenStatus, hreopenBody⟩ := yields_localReopen primary hexpires
  obtain ⟨reopenFrames, hreopenFramed, hreopenSent⟩ := second.carried _ _ _ hreopen
    (by rw [hreopenBody]; rfl)
  rw [hreadyStatus] at hreadySent
  rw [hreopenStatus] at hreopenSent
  have hurl : reopenUrl env (urlSafeNoPad.encode token.val) =
      browserUrl config.originPort.port (urlSafeNoPad.encode token.val) := by
    unfold reopenUrl
    rw [primary.publicOrigin]
    rfl
  rw [hurl] at hreopenFramed
  have hprobe : granted ReadyProbe.fromSlice (.ok (200, readyFrames)) =
      .returned (some ⟨descriptor.instanceId, .ready⟩) := by
    rw [granted_pair hreadyFramed ?_]
    · exact @readyProbe_serialized descriptor.instanceId .ready
    · rw [instanceId_length]
      decide +kernel
  have hgrant : granted ReopenGrant.fromSlice (.ok (200, reopenFrames)) = .returned
      (some ⟨browserUrl config.originPort.port (urlSafeNoPad.encode token.val), expiresAt⟩) := by
    rw [granted_pair hreopenFramed ?_]
    · exact reopenGrant_serialized _ expiresAt
    · have hlength := @browserUrl_length _ (urlSafeNoPad.encode token.val) config.originPort.lt
      have hnames : "url".length = 3 ∧ "expires_at".length = 10 := by decide +kernel
      rw [launcherSecret_length token.property] at hlength
      rw [startedAt_length, hnames.1, hnames.2]
      omega
  unfold Secondary.round
  refine yields_ask second.readDescriptor (yields_requireReturned rfl (yields_ask second.alive
    (yields_require rfl (yields_ask hreadySent (yields_requireReturned hprobe (yields_require
      (if_pos ⟨rfl, rfl⟩) (yields_ask hreopenSent (yields_requireReturned hgrant (yields_require
        hport (yields_ask second.nowUtc (yields_require ?_ (yields_pure _))))))))))))
  exact validateReopenGrant_fresh token.property hexpires hearly hlate

end

/-! ## A second launch -/

def sampleDescriptor : RuntimeDescriptor where
  instanceId := 1
  pid := ⟨5432, by decide⟩
  port := ⟨43121, by decide⟩
  startedAt := ⟨10 ^ 9, by decide, by decide⟩
  launcherSecret := urlSafeNoPad.encode (Security.sampleSecret 2).val

/-- The manager, and a clock at the Unix epoch. -/
def primaryAnswer : (q : RuntimeCall) → Option (RuntimeAnswer q)
  | .api (.validateHost parts) => some ((Security.validateHost Security.sampleCrates
      Security.sampleConfig (securityParts parts)).mapError securityError)
  | .authorizeLauncher parts => some ((authorizeLauncher Security.sampleCrates Security.sampleConfig
      sampleDescriptor.launcherSecret (securityParts parts)).mapError securityError)
  | .issueLaunchToken => some (some (urlSafeNoPad.encode (Security.sampleSecret 5).val))
  | q => sampleAnswer q

/-- Every response arrives in one frame. -/
def secondAnswer : (q : SecondaryCall) → Option (SecondaryAnswer q)
  | .instantNow => some 0
  | .readDescriptor => some (.returned (some sampleDescriptor))
  | .processIsDead _ => some false
  | .send _ parts _ => do
    let response ← ((runtimeRouter sampleState parts).play primaryAnswer).2
    let bytes ← bodyBytes response.body
    return .ok (response.status, [.data bytes])
  | .nowUtc => some 0
  | .openBrowser _ _ => some true
  | .showError _ _ | .sleepUntil _ => some ()

theorem readyPrimary_sample : ReadyPrimary Security.sampleCrates Security.sampleConfig sampleState
    sampleDescriptor 0 (Security.sampleSecret 5) primaryAnswer where
  base64 := rfl
  instanceId := rfl
  publicOrigin := by decide
  port := rfl
  launcherSecret := ⟨Security.sampleSecret 2, rfl⟩
  validateHost _ := rfl
  authorizeLauncher _ := rfl
  newV4 := rfl
  phase := rfl
  nowUtc := rfl
  issueLaunchToken := rfl

theorem findsPrimary_sample :
    FindsPrimary sampleState sampleDescriptor 0 10000 primaryAnswer secondAnswer where
  readDescriptor := rfl
  alive := rfl
  carried parts response bytes hresponse hbytes := by
    refine ⟨[.data bytes], ?_, ?_⟩
    · simpa using Framed.data bytes .nil
    · unfold secondAnswer
      simp only
      rw [hresponse.play]
      simp only [Option.bind_eq_bind, Option.bind_some]
      rw [hbytes]
      rfl
  nowUtc := rfl

/-- The request of a client that was opened with a token. -/
def sampleExchange : Parts where
  method := .post
  path := "/api/session/exchange"
  query := none
  headers := []

def exchangeText (token : String) : String := Serde.toText (.object [("token", .string token)])

theorem sampleExchange_sent (token : String) :
    Sent (.exchange token) sampleExchange (exchangeText token) where
  method := rfl
  path := by
    show sampleExchange.path.toList = "/api/session/exchange".toList.takeWhile (· ≠ '?')
    decide +kernel
  query := by
    show none = ("/api/session/exchange".toList.dropWhile (· ≠ '?')).tail?
    decide +kernel
  body document h := by
    obtain rfl := Option.some.inj h
    refine Serde.fromStr_toText (d := 1) ?_ (by decide)
    intro m hm
    rw [List.mem_singleton.1 hm]
    trivial

theorem launch_handshake_sample :
    Yields secondAnswer (Secondary.round .listener 10000).run (.ok
      { descriptor := sampleDescriptor
        browserPort := 43121
        token := urlSafeNoPad.encode (Security.sampleSecret 5).val }) ∧
    ∃ read, readLaunchToken (fragment (browserUrl 43121
        (urlSafeNoPad.encode (Security.sampleSecret 5).val))) = some read ∧
      Reaches (acceptingAnswer (exchangeText read)) (runtimeRouter sampleState sampleExchange)
        (.api (.exchange sampleExchange (urlSafeNoPad.encode (Security.sampleSecret 5).val))) := by
  have horigin : Security.sampleConfig.publicOrigin =
      publicOriginOf .listener sampleDescriptor.port.get.toNat := rfl
  obtain ⟨hround, read, hread, hsent⟩ := launch_handshake readyPrimary_sample findsPrimary_sample
    horigin (by decide) (by decide) (by decide)
  exact ⟨hround, read, hread, (hsent sampleExchange _ (sampleExchange_sent read)).2 _ _
    (acceptingRuntime _ sampleExchange)⟩

end CodingAgent.L5.Web.Client
