import CodingAgent.Core.Base64
import CodingAgent.Core.Lts

/-!
# The security manager (`coding-agent-app/src/security.rs`)

Launch tokens, sessions and the checks on a request. The calls of one manager
run in parallel: they interleave between any two accesses of the clock, the
random source and the two tables.

* `Crates`: what `base64`, `http` and `cookie` are relied on for.
* `authorizeRead`, `authorizeMutation`: the checks on a request.
* `security`: the transition system of the calls. The clock never goes back,
  and a drawn secret is one that was not drawn before: that is the guard of
  `draw`.

The number of a launch token or session is taken together with the insertion
under it: nothing else depends on it.
-/
namespace CodingAgent.L4.App.Security
open CodingAgent.Base64

/-- The bytes of a header value. -/
abbrev HeaderValue := List UInt8

def IsText (text : String) : Prop := ∀ c ∈ text.toList, isVisible c = true

instance (text : String) : Decidable (IsText text) :=
  decidable_of_iff (text.toList.all isVisible = true) List.all_eq_true

/-- The bytes of a text all of whose characters are ASCII. -/
def bytesOf (text : String) : HeaderValue := text.toList.map fun c => UInt8.ofNat c.toNat

structure Cookie where
  name : String
  value : String
  deriving DecidableEq, Repr

/-- What the third-party crates are relied on for. `splitParse` may be any
function. -/
structure Crates where
  /-- `URL_SAFE_NO_PAD` -/
  base64 : Engine
  /-- `HeaderValue::to_str` -/
  toStr : HeaderValue → Option String
  /-- `Cookie::split_parse`; `none` is a pair that does not parse -/
  splitParse : String → List (Option Cookie)
  /-- `HeaderValue::from_str` of the cookie with `HttpOnly`, `SameSite=Strict`
  and `Path=/` -/
  setCookie : Cookie → Option HeaderValue
  toStr_eq_some : ∀ value text, toStr value = some text ↔ IsText text ∧ value = bytesOf text
  setCookie_isSome : ∀ cookie, IsText cookie.name → IsText cookie.value →
    (setCookie cookie).isSome = true

/-! ## Errors -/

/-- mirrors crates/coding-agent-app/src/security.rs:504-512 -/
structure ApiError where
  status : Nat
  code : String
  message : String
  retryable : Bool
  deriving DecidableEq, Repr

def securityError (status : Nat) (code message : String) : ApiError :=
  { status, code, message, retryable := false }

def duplicateHeader : ApiError :=
  securityError 400 "SECURITY_DUPLICATE_HEADER" "A security-sensitive request header was duplicated."

def invalidHost : ApiError :=
  securityError 403 "SECURITY_INVALID_HOST"
    "The request Host is not valid for this application instance."

def invalidOrigin : ApiError :=
  securityError 403 "SECURITY_INVALID_ORIGIN"
    "The request Origin is not valid for this application instance."

def invalidLaunchToken : ApiError :=
  securityError 401 "SECURITY_INVALID_LAUNCH_TOKEN"
    "The one-time launch token is invalid or expired."

def invalidSession : ApiError :=
  securityError 401 "SECURITY_INVALID_SESSION" "The process session is missing or invalid."

def invalidCsrf : ApiError :=
  securityError 403 "SECURITY_INVALID_CSRF" "The CSRF token is missing or invalid."

def randomSourceError : ApiError :=
  securityError 500 "SECURITY_RANDOM_UNAVAILABLE"
    "Secure random generation is temporarily unavailable."

def internalCookieError : ApiError :=
  securityError 500 "SECURITY_COOKIE_ENCODING_FAILED"
    "The process session cookie could not be encoded."

/-! ## Data -/

def secretBytes : Nat := 32

/-- 120 s, in nanoseconds. -/
def launchTokenLifetime : Nat := 120 * 10 ^ 9

def sessionCookieName : String := "coding_agent_session"

/-- What `random_secret` draws. -/
abbrev Secret := { bytes : List UInt8 // bytes.length = secretBytes }

structure LaunchTokenRecord where
  token : String
  issuedAt : Nat
  expiresAt : Nat
  deriving DecidableEq, Repr

structure SessionRecord where
  sessionId : String
  csrfToken : String
  deriving DecidableEq, Repr

structure AuthContext where
  sessionId : String
  deriving DecidableEq, Repr

/-- The names are those of `HeaderMap`, in lower case. -/
structure Parts where
  headers : List (String × HeaderValue)
  deriving DecidableEq, Repr

/-- A port that `exact_loopback_origin_host` and `validate_loopback_authority`
admit. -/
structure LoopbackPort where
  port : Nat
  nonzero : port ≠ 0
  lt : port < 2 ^ 16

/-- mirrors crates/coding-agent-app/src/security.rs:425-437 -/
def LoopbackPort.authority (p : LoopbackPort) : String := "127.0.0.1:" ++ p.port.repr

/-- mirrors crates/coding-agent-app/src/security.rs:406-423 -/
def LoopbackPort.origin (p : LoopbackPort) : String := "http://127.0.0.1:" ++ p.port.repr

/-- What a manager is configured with; the two ports are the same unless there
is a development proxy. -/
structure Config where
  originPort : LoopbackPort
  hostPort : LoopbackPort

namespace Config

/-- mirrors crates/coding-agent-app/src/security.rs:172-185 -/
def fromSeed (port : LoopbackPort) : Config := ⟨port, port⟩

/-- mirrors crates/coding-agent-app/src/security.rs:187-203 -/
def fromSeedForDevelopment (port proxyPort : LoopbackPort) : Config := ⟨port, proxyPort⟩

def publicOrigin (config : Config) : String := config.originPort.origin

def expectedHost (config : Config) : String := config.hostPort.authority

end Config

theorem isText_repr (n : Nat) : IsText n.repr := by
  intro c hc
  rw [Nat.toList_repr] at hc
  have hdigit := Nat.isDigit_of_mem_toDigits (by decide) (by decide) hc
  simp only [Char.isDigit, Bool.and_eq_true, decide_eq_true_eq, ge_iff_le,
    UInt32.le_iff_toNat_le] at hdigit
  obtain ⟨hlow, hhigh⟩ := hdigit
  have hlow : 48 ≤ c.toNat := hlow
  have hhigh : c.toNat ≤ 57 := hhigh
  unfold isVisible
  simp only [Bool.or_eq_true, Bool.and_eq_true, decide_eq_true_eq]
  omega

theorem isText_append {a b : String} (ha : IsText a) (hb : IsText b) : IsText (a ++ b) := by
  intro c hc
  rw [String.toList_append] at hc
  exact (List.mem_append.1 hc).elim (ha c) (hb c)

theorem isText_publicOrigin (config : Config) : IsText config.publicOrigin :=
  isText_append (by decide) (isText_repr _)

theorem isText_expectedHost (config : Config) : IsText config.expectedHost :=
  isText_append (by decide) (isText_repr _)

/-! ## The checks on a request -/

section
variable (crates : Crates)

/-- The bytes and whether they are valid.
mirrors crates/coding-agent-app/src/security.rs:486-496 -/
def decodeSecret (value : String) : List UInt8 × Bool :=
  match crates.base64.decode value with
  | none => (List.replicate secretBytes 0, false)
  | some decoded =>
    if decoded.length ≠ secretBytes then (List.replicate secretBytes 0, false)
    else (decoded, true)

/-- mirrors crates/coding-agent-app/src/security.rs:480-484 -/
def secretMatches (expected presented : String) : Bool :=
  let (expected, expectedValid) := decodeSecret crates expected
  let (presented, presentedValid) := decodeSecret crates presented
  expected == presented && expectedValid && presentedValid

def Parts.getAll (parts : Parts) (name : String) : List HeaderValue :=
  (parts.headers.filter fun header => header.1 = name).map (·.2)

/-- mirrors crates/coding-agent-app/src/security.rs:439-450 -/
def requiredHeader (parts : Parts) (name : String) (missingOrInvalid : ApiError) :
    Except ApiError String :=
  match parts.getAll name with
  | [] => .error missingOrInvalid
  | [first] =>
    match crates.toStr first with
    | some text => .ok text
    | none => .error missingOrInvalid
  | _ :: _ :: _ => .error duplicateHeader

/-- The loop over the pairs; `sessionValue` is what it has found so far.
mirrors crates/coding-agent-app/src/security.rs:452-465 -/
def sessionCookieLoop (sessionValue : Option String) :
    List (Option Cookie) → Except ApiError String
  | [] =>
    match sessionValue with
    | some value => .ok value
    | none => .error invalidSession
  | none :: _ => .error invalidSession
  | some cookie :: rest =>
    if cookie.name ≠ sessionCookieName then sessionCookieLoop sessionValue rest
    else if sessionValue.isSome then .error duplicateHeader
    else sessionCookieLoop (some cookie.value) rest

def sessionCookieValue (header : String) : Except ApiError String :=
  sessionCookieLoop none (crates.splitParse header)

/-- The last session that matches.
mirrors crates/coding-agent-app/src/security.rs:467-478 -/
def findSession (sessions : List (Nat × SessionRecord)) (presented : String) :
    Option SessionRecord :=
  sessions.foldl
    (fun matched entry =>
      if secretMatches crates entry.2.sessionId presented then some entry.2 else matched)
    none

variable (config : Config)

/-- mirrors crates/coding-agent-app/src/security.rs:278-285 -/
def validateHost (parts : Parts) : Except ApiError Unit := do
  let host ← requiredHeader crates parts "host" invalidHost
  if host = config.expectedHost then .ok () else .error invalidHost

/-- mirrors crates/coding-agent-app/src/security.rs:307-314 -/
def validateOrigin (parts : Parts) : Except ApiError Unit := do
  let origin ← requiredHeader crates parts "origin" invalidOrigin
  if origin = config.publicOrigin then .ok () else .error invalidOrigin

variable (sessions : List (Nat × SessionRecord))

/-- mirrors crates/coding-agent-app/src/security.rs:344-350 -/
def authorizeSession (parts : Parts) : Except ApiError SessionRecord := do
  let cookieHeader ← requiredHeader crates parts "cookie" invalidSession
  let presented ← sessionCookieValue crates cookieHeader
  match findSession crates sessions presented with
  | some session => .ok session
  | none => .error invalidSession

/-- mirrors crates/coding-agent-app/src/security.rs:297-301 -/
def sessionFor (auth : AuthContext) : Except ApiError SessionRecord :=
  match findSession crates sessions auth.sessionId with
  | some session => .ok session
  | none => .error invalidSession

/-- mirrors crates/coding-agent-app/src/security.rs:375-381 -/
def authorizeRead (parts : Parts) : Except ApiError AuthContext := do
  validateHost crates config parts
  let session ← authorizeSession crates sessions parts
  .ok { sessionId := session.sessionId }

/-- The table is read twice; `later` is what it holds the second time.
mirrors crates/coding-agent-app/src/security.rs:383-393 -/
def authorizeMutation (later : List (Nat × SessionRecord)) (parts : Parts) :
    Except ApiError AuthContext := do
  let auth ← authorizeRead crates config sessions parts
  validateOrigin crates config parts
  let presented ← requiredHeader crates parts "x-csrf-token" invalidCsrf
  let session ← sessionFor crates later auth
  if secretMatches crates session.csrfToken presented then .ok auth else .error invalidCsrf

end

/-! ## The calls -/

/-- Where an `exchange` is. -/
inductive ExchangeStage where
  /-- the Host and the Origin are valid -/
  | validated
  /-- `consume_launch_token` has read the clock -/
  | stamped (now : Nat)
  /-- the token is out of the table -/
  | consumed (now : Nat)
  | sessionDrawn (now : Nat) (sessionId : String)
  | drawn (now : Nat) (session : SessionRecord)
  deriving DecidableEq, Repr

/-- What an accepted exchange returns, with the reading of the clock it was
accepted at and its session. -/
structure SessionExchange where
  setCookie : HeaderValue
  now : Nat
  session : SessionRecord
  deriving DecidableEq, Repr

/-- Where a call is. -/
inductive CallPc where
  | idle
  | issuing
  | issueDrawn (token : String)
  /-- `issue_launch_token` has read the clock -/
  | issueStamped (record : LaunchTokenRecord)
  /-- `none`: the random source failed -/
  | issued (result : Option LaunchTokenRecord)
  | expiresAsked (token : String)
  | expiresStamped (token : String) (now : Nat)
  | expires (result : Option Nat)
  | exchanging (parts : Parts) (token : String) (stage : ExchangeStage)
  | exchanged (parts : Parts) (token : String) (result : Except ApiError SessionExchange)
  | panicked
  deriving DecidableEq

structure SecurityState where
  clock : Nat
  launchTokens : List (Nat × LaunchTokenRecord)
  nextLaunchTokenId : Nat
  sessions : List (Nat × SessionRecord)
  nextSessionId : Nat
  calls : Nat → CallPc
  /-- every secret drawn so far -/
  drawn : List Secret
  /-- every token that ever was in the table -/
  everIssued : List LaunchTokenRecord

inductive SecurityLabel where
  | elapse (time : Nat)
  | issueLaunchToken (call : Nat)
  | launchTokenExpiresAt (call : Nat) (token : String)
  | exchange (call : Nat) (parts : Parts) (token : String)
  /-- the random source answers a call; `none` is a failure -/
  | draw (call : Nat) (secret : Option Secret)
  /-- a call takes its next step -/
  | advance (call : Nat)

/-- `HashMap::insert`. -/
def insert {α : Type} (table : List (Nat × α)) (id : Nat) (a : α) : List (Nat × α) :=
  table.filter (fun entry => entry.1 ≠ id) ++ [(id, a)]

/-- A table of more bytes than `isize::MAX` cannot be allocated: then
`HashMap::insert` panics. -/
def maxEntries : Nat := 2 ^ 63 - 1

/-- `records.retain(|_, record| now < record.expires_at)` -/
def prune (now : Nat) (records : List (Nat × LaunchTokenRecord)) :
    List (Nat × LaunchTokenRecord) :=
  records.filter fun entry => now < entry.2.expiresAt

namespace SecurityState

section
variable (crates : Crates) (config : Config)

def put (s : SecurityState) (call : Nat) (pc : CallPc) : SecurityState :=
  { s with calls := fun i => if i = call then pc else s.calls i }

/-- mirrors crates/coding-agent-app/src/security.rs:205-233 -/
def fromSeed (initialLaunchToken : Secret) (launcherSecret : Secret) (clock : Nat) :
    SecurityState :=
  let record : LaunchTokenRecord :=
    { token := crates.base64.encode initialLaunchToken.val
      issuedAt := clock
      expiresAt := clock + launchTokenLifetime }
  { clock
    launchTokens := [(0, record)]
    nextLaunchTokenId := 1
    sessions := []
    nextSessionId := 0
    calls := fun _ => .idle
    drawn := [initialLaunchToken, launcherSecret]
    everIssued := [record] }

/-- The first lines of `exchange`.
mirrors crates/coding-agent-app/src/security.rs:359-361 -/
def validate (parts : Parts) : Except ApiError Unit := do
  validateHost crates config parts
  validateOrigin crates config parts

/-- The end of `issue_launch_token`: the insertion.
mirrors crates/coding-agent-app/src/security.rs:255-260 -/
def insertLaunchToken (s : SecurityState) (call : Nat) (record : LaunchTokenRecord) :
    SecurityState :=
  let id := s.nextLaunchTokenId
  let s := { s with nextLaunchTokenId := (s.nextLaunchTokenId + 1) % 2 ^ 64 }
  if maxEntries ≤ s.launchTokens.length then s.put call .panicked
  else
    { s with
      launchTokens := insert s.launchTokens id record
      everIssued := s.everIssued ++ [record] }.put call (.issued (some record))

/-- `launch_token_expires_at` once it has the lock.
mirrors crates/coding-agent-app/src/security.rs:263-276 -/
def expiresAt (s : SecurityState) (call : Nat) (token : String) (now : Nat) : SecurityState :=
  let records := prune now s.launchTokens
  let matched := records.find? fun entry => secretMatches crates entry.2.token token
  let result := matched.map fun entry => entry.2.expiresAt
  { s with launchTokens := records }.put call (.expires result)

/-- The number of the last record that matches.
mirrors crates/coding-agent-app/src/security.rs:321-326 -/
def matchedId (records : List (Nat × LaunchTokenRecord)) (presented : String) : Option Nat :=
  records.foldl
    (fun matched entry =>
      if secretMatches crates entry.2.token presented then some entry.1 else matched)
    none

/-- `consume_launch_token` once it has the lock.
mirrors crates/coding-agent-app/src/security.rs:316-332 -/
def consumeLaunchToken (s : SecurityState) (call : Nat) (parts : Parts) (token : String)
    (now : Nat) : SecurityState :=
  let records := prune now s.launchTokens
  match matchedId crates records token with
  | none =>
    { s with launchTokens := records }.put call (.exchanged parts token (.error invalidLaunchToken))
  | some id =>
    { s with launchTokens := records.filter fun entry => entry.1 ≠ id }.put call
      (.exchanging parts token (.consumed now))

/-- The end of `create_session` and of `exchange`.
mirrors crates/coding-agent-app/src/security.rs:339-341, 363-371 -/
def insertSession (s : SecurityState) (call : Nat) (parts : Parts) (token : String) (now : Nat)
    (session : SessionRecord) : SecurityState :=
  let id := s.nextSessionId
  let s := { s with nextSessionId := (s.nextSessionId + 1) % 2 ^ 64 }
  if maxEntries ≤ s.sessions.length then s.put call .panicked
  else
    { s with sessions := insert s.sessions id session }.put call <| .exchanged parts token <|
      match crates.setCookie ⟨sessionCookieName, session.sessionId⟩ with
      | some setCookie => .ok { setCookie, now, session }
      | none => .error internalCookieError

/-- A call gets the secret it asked for, or an error.
mirrors crates/coding-agent-app/src/security.rs:248, 335-338 -/
def draw (s : SecurityState) (call : Nat) : Option Secret → Option SecurityState
  | some secret =>
    if secret ∈ s.drawn then none
    else
      let text := crates.base64.encode secret.val
      let s := { s with drawn := secret :: s.drawn }
      match s.calls call with
      | .issuing => some (s.put call (.issueDrawn text))
      | .exchanging parts token (.consumed now) =>
        some (s.put call (.exchanging parts token (.sessionDrawn now text)))
      | .exchanging parts token (.sessionDrawn now sessionId) =>
        some (s.put call (.exchanging parts token (.drawn now ⟨sessionId, text⟩)))
      | _ => none
  | none =>
    match s.calls call with
    | .issuing => some (s.put call (.issued none))
    | .exchanging parts token (.consumed _) | .exchanging parts token (.sessionDrawn _ _) =>
      some (s.put call (.exchanged parts token (.error randomSourceError)))
    | _ => none

def advance (s : SecurityState) (call : Nat) : Option SecurityState :=
  match s.calls call with
  | .issueDrawn token =>
    some (s.put call (.issueStamped ⟨token, s.clock, s.clock + launchTokenLifetime⟩))
  | .issueStamped record => some (s.insertLaunchToken call record)
  | .expiresAsked token => some (s.put call (.expiresStamped token s.clock))
  | .expiresStamped token now => some (s.expiresAt crates call token now)
  | .exchanging parts token .validated =>
    some (s.put call (.exchanging parts token (.stamped s.clock)))
  | .exchanging parts token (.stamped now) =>
    some (s.consumeLaunchToken crates call parts token now)
  | .exchanging parts token (.drawn now session) =>
    some (s.insertSession crates call parts token now session)
  | _ => none

def next (s : SecurityState) : SecurityLabel → Option SecurityState
  | .elapse time => some { s with clock := s.clock + time }
  | .issueLaunchToken call =>
    if s.calls call = .idle then some (s.put call .issuing) else none
  | .launchTokenExpiresAt call token =>
    if s.calls call = .idle then some (s.put call (.expiresAsked token)) else none
  | .exchange call parts token =>
    if s.calls call = .idle then
      match validate crates config parts with
      | .ok () => some (s.put call (.exchanging parts token .validated))
      | .error error => some (s.put call (.exchanged parts token (.error error)))
    else none
  | .draw call secret => s.draw crates call secret
  | .advance call => s.advance crates call

end

end SecurityState

open SecurityState

/-- A manager and the calls on it, from its construction on. -/
def security (crates : Crates) (config : Config) : LTS SecurityState SecurityLabel :=
  .ofFn
    (fun s => ∃ initialLaunchToken launcherSecret clock, initialLaunchToken ≠ launcherSecret ∧
      s = fromSeed crates initialLaunchToken launcherSecret clock)
    (SecurityState.next crates config)

/-! ## Facts of the checks -/

section
variable {crates : Crates} {config : Config}

theorem decodeSecret_encode (secret : Secret) :
    decodeSecret crates (crates.base64.encode secret.val) = (secret.val, true) := by
  unfold decodeSecret
  rw [crates.base64.decode_encode]
  simp [secret.property]

/-- A text decodes to a valid secret only if it is its encoding. -/
theorem decodeSecret_valid {text : String} {bytes : List UInt8}
    (h : decodeSecret crates text = (bytes, true)) :
    text = crates.base64.encode bytes ∧ bytes.length = secretBytes := by
  unfold decodeSecret at h
  split at h
  · cases h
  · rename_i decoded hdecoded
    split at h
    · cases h
    · rename_i hlength
      cases h
      exact ⟨crates.base64.strict _ _ hdecoded, not_not.1 hlength⟩

/-- A secret matches its own text and no other. -/
theorem secretMatches_encode (secret : Secret) (presented : String) :
    secretMatches crates (crates.base64.encode secret.val) presented = true ↔
      presented = crates.base64.encode secret.val := by
  unfold secretMatches
  rw [decodeSecret_encode]
  simp only [Bool.and_true, Bool.and_eq_true, beq_iff_eq]
  constructor
  · rintro ⟨hbytes, hvalid⟩
    have hpresented : decodeSecret crates presented = (secret.val, true) := Prod.ext hbytes.symm hvalid
    exact (decodeSecret_valid hpresented).1
  · rintro rfl
    rw [decodeSecret_encode]
    exact ⟨rfl, rfl⟩

/-- The request carries one header of the name, with this text. -/
def Carries (parts : Parts) (name text : String) : Prop := parts.getAll name = [bytesOf text]

theorem requiredHeader_eq_ok {parts : Parts} {name text : String} {error : ApiError} :
    requiredHeader crates parts name error = .ok text ↔ IsText text ∧ Carries parts name text := by
  unfold requiredHeader Carries
  split
  · rename_i hnone
    simp [hnone]
  · rename_i value hone
    rw [hone]
    split
    · rename_i text' htext
      obtain ⟨hvisible, rfl⟩ := (crates.toStr_eq_some _ _).1 htext
      constructor
      · intro h
        cases h
        exact ⟨hvisible, rfl⟩
      · rintro ⟨hvisible', hbytes⟩
        have hsame := (crates.toStr_eq_some _ _).2 ⟨hvisible', (List.cons.inj hbytes).1⟩
        rw [Option.some.inj (htext.symm.trans hsame)]
    · rename_i htext
      constructor
      · intro h
        cases h
      · rintro ⟨hvisible, hbytes⟩
        rw [(crates.toStr_eq_some _ _).2 ⟨hvisible, (List.cons.inj hbytes).1⟩] at htext
        cases htext
  · rename_i hmany
    simp [hmany]

/-- A header that must equal a configured text. -/
theorem requiredHeader_bind {parts : Parts} {name expected : String} {error refused : ApiError}
    (h : IsText expected) :
    (do let text ← requiredHeader crates parts name error
        if text = expected then Except.ok () else .error refused) = .ok () ↔
      Carries parts name expected := by
  cases hheader : requiredHeader crates parts name error with
  | error e =>
    constructor
    · intro hok
      cases hok
    · intro hcarries
      rw [requiredHeader_eq_ok.2 ⟨h, hcarries⟩] at hheader
      cases hheader
  | ok text =>
    have htext := requiredHeader_eq_ok.1 hheader
    show (if text = expected then Except.ok () else .error refused) = .ok () ↔ _
    by_cases heq : text = expected
    · rw [if_pos heq]
      exact ⟨fun _ => heq ▸ htext.2, fun _ => rfl⟩
    · rw [if_neg heq]
      constructor
      · intro hok
        cases hok
      · intro hcarries
        rw [requiredHeader_eq_ok.2 ⟨h, hcarries⟩] at hheader
        exact absurd (Except.ok.inj hheader).symm heq

theorem validateHost_eq_ok {parts : Parts} :
    validateHost crates config parts = .ok () ↔ Carries parts "host" config.expectedHost :=
  requiredHeader_bind (isText_expectedHost config)

theorem validateOrigin_eq_ok {parts : Parts} :
    validateOrigin crates config parts = .ok () ↔ Carries parts "origin" config.publicOrigin :=
  requiredHeader_bind (isText_publicOrigin config)

theorem validate_eq_ok {parts : Parts} :
    validate crates config parts = .ok () ↔
      Carries parts "host" config.expectedHost ∧ Carries parts "origin" config.publicOrigin := by
  have hhost : validateHost crates config parts = .ok () ↔ _ := validateHost_eq_ok
  have horigin : validateOrigin crates config parts = .ok () ↔ _ := validateOrigin_eq_ok
  rw [← hhost, ← horigin]
  unfold validate
  cases validateHost crates config parts with
  | error e => exact ⟨fun h => (by cases h), fun h => (by cases h.1)⟩
  | ok _ => exact ⟨fun h => ⟨rfl, h⟩, fun h => h.2⟩

end

/-! ## Crates to run with -/

def sampleToStr (value : HeaderValue) : Option String :=
  if value.all fun b => isVisible (Char.ofNat b.toNat) then
    some (String.ofList (value.map fun b => Char.ofNat b.toNat))
  else none

/-- One pair of a cookie header, without the spaces before it. -/
def samplePair (pair : List Char) : Option Cookie :=
  let pair := pair.dropWhile (· == ' ')
  if pair.takeWhile (· != '=') = [] ∨ '=' ∉ pair then none
  else some ⟨String.ofList (pair.takeWhile (· != '=')),
    String.ofList ((pair.dropWhile (· != '=')).drop 1)⟩

def sampleSetCookie (cookie : Cookie) : Option HeaderValue :=
  let text := cookie.name ++ "=" ++ cookie.value ++ "; HttpOnly; SameSite=Strict; Path=/"
  if IsText text then some (bytesOf text) else none

theorem visible_lt {c : Char} (h : isVisible c = true) : c.toNat < 128 := by
  unfold isVisible at h
  simp only [Bool.or_eq_true, Bool.and_eq_true, decide_eq_true_eq, beq_iff_eq] at h
  omega

theorem ofNat_lt_toNat {n : Nat} (h : n < 128) : (Char.ofNat n).toNat = n := by
  have hall : ∀ n : Fin 128, (Char.ofNat n.val).toNat = n.val := by decide
  exact hall ⟨n, h⟩

theorem sampleToStr_eq_some (value : HeaderValue) (text : String) :
    sampleToStr value = some text ↔ IsText text ∧ value = bytesOf text := by
  constructor
  · intro h
    unfold sampleToStr at h
    split at h
    · rename_i hall
      cases h
      rw [List.all_eq_true] at hall
      refine ⟨fun c hc => ?_, ?_⟩
      · rw [String.toList_ofList] at hc
        obtain ⟨b, hb, rfl⟩ := List.mem_map.1 hc
        exact hall b hb
      · unfold bytesOf
        rw [String.toList_ofList, List.map_map]
        refine (List.map_id value).symm.trans (List.map_congr_left fun b hb => ?_)
        have hlt : b.toNat < 128 := by
          have hbyte := b.toNat_lt
          have hall256 : ∀ n : Fin 256, isVisible (Char.ofNat n.val) = true → n.val < 128 := by
            decide +kernel
          exact hall256 ⟨b.toNat, hbyte⟩ (hall b hb)
        show b = UInt8.ofNat (Char.ofNat b.toNat).toNat
        rw [ofNat_lt_toNat hlt, UInt8.ofNat_toNat]
    · cases h
  · rintro ⟨htext, rfl⟩
    have hback : ∀ c ∈ text.toList, Char.ofNat (UInt8.ofNat c.toNat).toNat = c := by
      intro c hc
      have hlt := visible_lt (htext c hc)
      rw [toNat_ofNat_lt (by omega), Char.ofNat_toNat]
    unfold sampleToStr bytesOf
    rw [if_pos, List.map_map]
    · refine congrArg some ((congrArg String.ofList ?_).trans String.ofList_toList)
      exact (List.map_congr_left hback).trans (List.map_id _)
    · rw [List.all_eq_true]
      intro b hb
      obtain ⟨c, hc, rfl⟩ := List.mem_map.1 hb
      rw [hback c hc]
      exact htext c hc

/-- The crates as far as a run needs them. -/
def sampleCrates : Crates where
  base64 := urlSafeNoPad
  toStr := sampleToStr
  splitParse header := (header.toList.splitOn ';').map samplePair
  setCookie := sampleSetCookie
  toStr_eq_some := sampleToStr_eq_some
  setCookie_isSome cookie hname hvalue := by
    unfold sampleSetCookie
    dsimp only
    rw [if_pos]
    · rfl
    · exact isText_append (isText_append (isText_append hname (by decide)) hvalue) (by decide)

end CodingAgent.L4.App.Security
