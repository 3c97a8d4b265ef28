import CodingAgent.Core.Program
import CodingAgent.L1Domain.Serde
import CodingAgent.L3Api.Http
import CodingAgent.L4App.Descriptor
import CodingAgent.L4App.SingleInstance

/-!
# A second launch (`coding-agent-app/src/{single_instance,local_client}.rs`)

What a launch does that finds the lock taken: it reads the descriptor, asks the
process it names whether it is ready, has it issue a launch token, and opens
the browser; until that succeeds or ten seconds are over. The file, the
processes, the network, the clocks, the browser and the message box are
questions to the environment. A time that is no date in UTC, in the descriptor
or in the grant, ends the launch by a panic (`UtcTimestamp.Conversion`).

* `secondary_sound`: what comes before the browser is opened, in every run, and
  what a launch ends with.
* `secondary_ends`: a launch is over after sixteen rounds, if its sleeps last.
-/
namespace CodingAgent.L4.App.Secondary
open CodingAgent.L1.Domain CodingAgent.L3.Api.Http Descriptor Program
open SingleInstance (StartupPhase)

/-! ## The local client -/

/-- mirrors crates/coding-agent-app/src/local_client.rs:49-67 -/
inductive LocalClientError where
  | timeout
  | connect
  | handshake
  | buildRequest
  | request
  | responseTooLarge
  | readResponse
  | invalidJson
  deriving DecidableEq, Repr

/-- A part of a body. -/
inductive Frame where
  | data (bytes : List UInt8)
  | trailers
  | failed
  deriving DecidableEq, Repr

/-- mirrors crates/coding-agent-app/src/local_client.rs:23 -/
def maxResponseBodyBytes : Nat := 4 * 1024

/-- The loop of `read_body` from what it has read so far.
mirrors crates/coding-agent-app/src/local_client.rs:138-151 -/
def readBody (bytes : List UInt8) : List Frame → Except LocalClientError (List UInt8)
  | [] => .ok bytes
  | .failed :: _ => .error .readResponse
  | .trailers :: rest => readBody bytes rest
  | .data data :: rest =>
    if maxResponseBodyBytes - bytes.length < data.length then .error .responseTooLarge
    else readBody (bytes ++ data) rest

/-- `serde_json::from_slice` -/
def fromSlice (bytes : List UInt8) : Option Json :=
  let text := Utf8.lossy bytes
  if Utf8.encode text = bytes then Serde.fromStr (String.ofList text) else none

/-- What is made of a response.
mirrors crates/coding-agent-app/src/local_client.rs:128-135 -/
def decodeResponse {T : Type} (decode : List UInt8 → Outcome (Option T)) (status : Nat)
    (frames : List Frame) : Outcome (Except LocalClientError (Nat × Option T)) :=
  if status ≠ 200 then .returned (.ok (status, none))
  else
    match readBody [] frames with
    | .error error => .returned (.error error)
    | .ok body =>
      match decode body with
      | .panicked => .panicked
      | .returned (some decoded) => .returned (.ok (status, some decoded))
      | .returned none => .returned (.error .invalidJson)

/-- `deny_unknown_fields` -/
def exactFields (names : List String) (v : Json) : Option (List (Option Json)) :=
  match v with
  | .object members =>
    if members.all fun m => names.contains m.1 then Serde.fields names v else none
  | _ => Serde.fields names v

/-- mirrors crates/coding-agent-app/src/local_client.rs:25-30 -/
structure ReadyProbe where
  instanceId : Uuid
  state : StartupPhase
  deriving DecidableEq, Repr

/-- mirrors crates/coding-agent-app/src/local_client.rs:32-37 -/
structure ReopenGrant where
  url : String
  expiresAt : UtcTimestamp

/-- mirrors crates/coding-agent-app/src/single_instance.rs:489-494 -/
def phaseName : StartupPhase → String
  | .starting => "starting"
  | .ready => "ready"

def readUuid : Option Json → Option Uuid
  | some (.string text) => Uuid.parse text
  | _ => none

def ReadyProbe.deserialize (v : Json) : Option ReadyProbe := do
  match ← exactFields ["instance_id", "state"] v with
  | [instanceId, state] =>
    return { instanceId := ← readUuid instanceId
             state := ← state.bind (Serde.unitVariant phaseName [.starting, .ready]) }
  | _ => none

def ReadyProbe.fromSlice (bytes : List UInt8) : Outcome (Option ReadyProbe) :=
  .returned ((Secondary.fromSlice bytes).bind ReadyProbe.deserialize)

/-- `UtcTimestamp::deserialize` -/
def readTime (v : Json) : Outcome (Except UtcTimestamp.Conversion.DeserializeError UtcTimestamp) :=
  UtcTimestamp.Conversion.deserialize OffsetDateTime.parse v

def timePanics (v : Json) : Bool :=
  match readTime v with
  | .panicked => true
  | .returned _ => false

namespace ReopenGrant

/-- A grant whose time is a date. -/
def deserialize (v : Json) : Option ReopenGrant := do
  match ← exactFields ["url", "expires_at"] v with
  | [some (.string url), some expiresAt] =>
    match readTime expiresAt with
    | .returned (.ok expiresAt) => some { url, expiresAt }
    | _ => none
  | _ => none

/-- A member is read before the next one is looked at, so that a time panics
whatever comes after it. -/
def membersPanic : List (String × Json) → Bool
  | (first, v) :: ms =>
    if first = "expires_at" then timePanics v
    else
      match first, v, ms with
      | "url", .string _, (second, v) :: _ => second = "expires_at" && timePanics v
      | _, _, _ => false
  | [] => false

/-- Whether the reader of a grant comes to a time on which it panics. -/
def panics (text : List Char) : Bool :=
  match Json.skipBlank text with
  | '{' :: rest => membersPanic (Serde.metMembers text.length rest)
  | '[' :: rest =>
    match Serde.metItems text.length rest with
    | .string _ :: v :: _ => timePanics v
    | _ => false
  | _ => false

def fromSlice (bytes : List UInt8) : Outcome (Option ReopenGrant) :=
  if panics (Utf8.validPrefix bytes) then .panicked
  else .returned ((Secondary.fromSlice bytes).bind deserialize)

/-- The text ends in the middle, but the time has been read by then. -/
example : panics "\x7b\"url\":\"\", \"expires_at\":\"9999-12-31T23:59:59-00:01\",".toList = true := by
  decide +kernel

end ReopenGrant

/-- mirrors crates/coding-agent-app/src/local_client.rs:116-123 -/
def localRequest (descriptor : RuntimeDescriptor) (method : Method) (path : String) : Parts where
  method := method
  path := path
  query := none
  headers := [("host", .ofText ("127.0.0.1:" ++ toString descriptor.port.get.toNat)),
    ("x-launcher-secret", .ofText descriptor.launcherSecret)]

def readyPath : String := "/_local/ready"

def reopenPath : String := "/_local/reopen"

/-! ## The grant -/

/-- mirrors crates/coding-agent-app/src/platform.rs:183-185 -/
def browserUrl (port : Nat) (token : String) : String :=
  "http://127.0.0.1:" ++ toString port ++ "/#token=" ++ token

/-- `str::strip_prefix` -/
def stripPrefix (text start : String) : Option String :=
  if start.toList.isPrefixOf text.toList then
    some (String.ofList (text.toList.drop start.toList.length))
  else none

/-- `OffsetDateTime::saturating_add` of seconds -/
def saturatingAdd (now : Int) (seconds : Int) : Int := min (now + seconds * 10 ^ 9) maxNanos

/-- mirrors crates/coding-agent-app/src/single_instance.rs:1149-1168 -/
def validateReopenGrant (grant : ReopenGrant) (now : Int) (browserPort : Nat) : Option String := do
  let token ← stripPrefix grant.url (browserUrl browserPort "")
  if validateLauncherSecret token = .ok () then
    if browserUrl browserPort token ≠ grant.url then none
    else if grant.expiresAt.nanos < saturatingAdd now 110 ∨
        saturatingAdd now 121 < grant.expiresAt.nanos then none
    else some token
  else none

/-- mirrors crates/coding-agent-app/src/single_instance.rs:576-581 -/
inductive StartupPublicOrigin where
  | listener
  | development (publicOrigin : String)

/-- The port of `http://127.0.0.1:{port}`.
mirrors crates/coding-agent-app/src/single_instance.rs:1170-1178 -/
def canonicalLoopbackOriginPort (publicOrigin : String) : Option Nat := do
  let digits ← stripPrefix publicOrigin "http://127.0.0.1:"
  let port ← Digits.readNumeral 10 digits.toList
  if port ≠ 0 ∧ port < 2 ^ 16 ∧ publicOrigin = "http://127.0.0.1:" ++ toString port then some port
  else none

/-- mirrors crates/coding-agent-app/src/single_instance.rs:583-590 -/
def StartupPublicOrigin.browserPort : StartupPublicOrigin → Nat → Option Nat
  | .listener, listenerPort => if listenerPort ≠ 0 then some listenerPort else none
  | .development publicOrigin, _ => canonicalLoopbackOriginPort publicOrigin

/-! ## The launch -/

/-- What a launch asks for; instants are in milliseconds. -/
inductive SecondaryCall where
  | instantNow
  /-- `RuntimeDescriptor::read` -/
  | readDescriptor
  | processIsDead (pid : NonZero UInt32)
  | send (port : NonZero UInt16) (parts : Parts) (deadline : Nat)
  /-- `WallClock::now_utc`, in nanoseconds -/
  | nowUtc
  | openBrowser (port : Nat) (token : String)
  | showError (title body : String)
  | sleepUntil (instant : Nat)

@[reducible] def SecondaryAnswer : SecondaryCall → Type
  | .instantNow => Nat
  | .readDescriptor => Outcome (Option RuntimeDescriptor)
  | .processIsDead _ => Bool
  | .send _ _ _ => Except LocalClientError (Nat × List Frame)
  | .nowUtc => Int
  | .openBrowser _ _ => Bool
  | .showError _ _ | .sleepUntil _ => Unit

abbrev SecondaryPast : Type := List (Asked SecondaryCall SecondaryAnswer)

/-- Why a round has come to nothing. -/
inductive RoundError where
  | again
  | panicked
  deriving DecidableEq, Repr

/-- A round that may fail and be tried again. -/
abbrev Round (R : Type) : Type := Attempt SecondaryCall SecondaryAnswer RoundError R

def requireReturned {R : Type} (result : Outcome (Option R)) : Round R :=
  ExceptT.mk (pure (match result with
    | .returned (some a) => .ok a
    | .returned none => .error .again
    | .panicked => .error .panicked))

def require {R : Type} (result : Option R) : Round R := requireReturned (.returned result)

def ask (query : SecondaryCall) : Round (SecondaryAnswer query) :=
  ExceptT.mk (Except.ok <$> call query)

/-- The document of a response, if it is one of 200. -/
def granted {T : Type} (decode : List UInt8 → Outcome (Option T)) :
    Except LocalClientError (Nat × List Frame) → Outcome (Option T)
  | .error _ => .returned none
  | .ok (status, frames) =>
    match decodeResponse decode status frames with
    | .panicked => .panicked
    | .returned (.ok (status, some decoded)) =>
      .returned (if status = 200 then some decoded else none)
    | .returned _ => .returned none

/-- What a round ends with. -/
structure Reopened where
  descriptor : RuntimeDescriptor
  browserPort : Nat
  token : String

/-- mirrors crates/coding-agent-app/src/single_instance.rs:1115-1129 -/
def round (origin : StartupPublicOrigin) (deadline : Nat) : Round Reopened := do
  let read ← ask .readDescriptor
  let descriptor ← requireReturned read
  let dead ← ask (.processIsDead descriptor.pid)
  let _ ← require (if dead then none else some ())
  let ready ← ask (.send descriptor.port (localRequest descriptor .get readyPath) deadline)
  let probe ← requireReturned (granted ReadyProbe.fromSlice ready)
  let _ ← require
    (if probe.instanceId = descriptor.instanceId ∧ probe.state = .ready then some () else none)
  let reopen ← ask (.send descriptor.port (localRequest descriptor .post reopenPath) deadline)
  let grant ← requireReturned (granted ReopenGrant.fromSlice reopen)
  let browserPort ← require (origin.browserPort descriptor.port.get.toNat)
  let now ← ask .nowUtc
  let token ← require (validateReopenGrant grant now browserPort)
  return { descriptor, browserPort, token }

def openBrowserTitle : String := "Open Coding Agent"

def openBrowserBody (url : String) : String :=
  "The browser could not be opened automatically. Copy and open this complete URL:\n\n" ++ url

/-- mirrors crates/coding-agent-app/src/single_instance.rs:1180-1198 -/
def openBrowserOrReport (port : Nat) (token : String) :
    Program SecondaryCall SecondaryAnswer Bool := do
  if ← call (SecondaryCall.openBrowser port token) then pure true
  else do
    let _ ← call (SecondaryCall.showError openBrowserTitle (openBrowserBody (browserUrl port token)))
    pure false

/-- mirrors crates/coding-agent-app/src/single_instance.rs:779-783 -/
structure SecondaryRuntime where
  instanceId : Uuid
  browserOpened : Bool
  deriving DecidableEq, Repr

inductive StartupError where
  | primaryUnverified
  deriving DecidableEq, Repr

/-- What `start_secondary` comes to. -/
abbrev LaunchEnd : Type := Outcome (Except StartupError SecondaryRuntime)

def secondaryDeadline : Nat := 10000

def secondaryInitialDelay : Nat := 25

def secondaryMaxDelay : Nat := 1000

/-- The loop, for a number of rounds; `none` when it is not over then.
mirrors crates/coding-agent-app/src/single_instance.rs:1110-1146 -/
def rounds (origin : StartupPublicOrigin) (deadline : Nat) : Nat → Nat →
    Program SecondaryCall SecondaryAnswer (Option LaunchEnd)
  | 0, _ => pure none
  | n + 1, delay => do
    if deadline ≤ (← call SecondaryCall.instantNow) then
      pure (some (.returned (.error .primaryUnverified)))
    else
      match ← (round origin deadline).run with
      | .ok reopened => do
        let browserOpened ← openBrowserOrReport reopened.browserPort reopened.token
        pure (some (.returned (.ok
          { instanceId := reopened.descriptor.instanceId, browserOpened })))
      | .error .panicked => pure (some .panicked)
      | .error .again => do
        let now ← call SecondaryCall.instantNow
        let _ ← call (SecondaryCall.sleepUntil (min (now + delay) deadline))
        rounds origin deadline n (min (delay * 2) secondaryMaxDelay)

/-- mirrors crates/coding-agent-app/src/single_instance.rs:1103-1147 -/
def startSecondary (origin : StartupPublicOrigin) (n : Nat) :
    Program SecondaryCall SecondaryAnswer (Option LaunchEnd) := do
  let now ← call SecondaryCall.instantNow
  rounds origin (now + secondaryDeadline) n secondaryInitialDelay

/-! ## What a launch has seen -/

/-- What a round asked that ended well, with the answers. -/
inductive Evidence (origin : StartupPublicOrigin) : Reopened → SecondaryPast → Prop
  | round {descriptor : RuntimeDescriptor} {deadline browserPort : Nat} {token : String} {now : Int}
    {ready reopen : Except LocalClientError (Nat × List Frame)} {probe : ReadyProbe}
    {grant : ReopenGrant} :
    granted ReadyProbe.fromSlice ready = .returned (some probe) →
      probe.instanceId = descriptor.instanceId ∧ probe.state = .ready →
      granted ReopenGrant.fromSlice reopen = .returned (some grant) →
      origin.browserPort descriptor.port.get.toNat = some browserPort →
      validateReopenGrant grant now browserPort = some token →
      Evidence origin { descriptor, browserPort, token }
        [⟨.readDescriptor, some (.returned (some descriptor))⟩, ⟨.processIsDead descriptor.pid, some false⟩,
          ⟨.send descriptor.port (localRequest descriptor .get readyPath) deadline, some ready⟩,
          ⟨.send descriptor.port (localRequest descriptor .post reopenPath) deadline, some reopen⟩,
          ⟨.nowUtc, some now⟩]

/-- The browser was not opened. -/
def Unopened (past : SecondaryPast) : Prop := ∀ c ∈ past, ∀ port token, c.query ≠ .openBrowser port token

/-- The browser is opened once, on what a round ended with. -/
def SecondaryPermitted (origin : StartupPublicOrigin) (past : SecondaryPast) : SecondaryCall → Prop
  | .openBrowser port token => Unopened past ∧ ∃ before evidence descriptor,
      past = before ++ evidence ∧ Evidence origin ⟨descriptor, port, token⟩ evidence
  | _ => True

/-- The last answer held a time that is no date in UTC. -/
inductive Undated : SecondaryPast → Prop
  | descriptor {before : SecondaryPast} : Undated (before ++ [⟨.readDescriptor, some .panicked⟩])
  | grant {before : SecondaryPast} {descriptor : RuntimeDescriptor} {deadline : Nat}
    {reopen : Except LocalClientError (Nat × List Frame)} :
    granted ReopenGrant.fromSlice reopen = .panicked → Undated (before ++
      [⟨.send descriptor.port (localRequest descriptor .post reopenPath) deadline, some reopen⟩])

/-- What a launch ends with. -/
inductive Ended (origin : StartupPublicOrigin) (deadline : Nat) (past : SecondaryPast) :
    LaunchEnd → Prop
  | opened {before evidence : SecondaryPast} {r : Reopened} :
    past = before ++ evidence ++ [⟨.openBrowser r.browserPort r.token, some true⟩] →
      Evidence origin r evidence →
      Ended origin deadline past (.returned (.ok ⟨r.descriptor.instanceId, true⟩))
  | reported {before evidence : SecondaryPast} {r : Reopened} :
    past = before ++ evidence ++ [⟨.openBrowser r.browserPort r.token, some false⟩,
        ⟨.showError openBrowserTitle (openBrowserBody (browserUrl r.browserPort r.token)), some ()⟩] →
      Evidence origin r evidence →
      Ended origin deadline past (.returned (.ok ⟨r.descriptor.instanceId, false⟩))
  | unverified {before : SecondaryPast} {now : Nat} :
    Unopened past → past = before ++ [⟨.instantNow, some now⟩] → deadline ≤ now →
      Ended origin deadline past (.returned (.error .primaryUnverified))
  | panicked : Unopened past → Undated past → Ended origin deadline past .panicked

def roundsContract (origin : StartupPublicOrigin) (deadline : Nat) :
    Contract SecondaryCall SecondaryAnswer (Option LaunchEnd) where
  permitted := SecondaryPermitted origin
  returned past
    | none => Unopened past
    | some result => Ended origin deadline past result
  faulted past := ∃ before query, past = before ++ [⟨query, none⟩]

/-- The contract of a round that starts after `past`. -/
def roundContract (origin : StartupPublicOrigin) (past : SecondaryPast) :
    Contract SecondaryCall SecondaryAnswer (Except RoundError Reopened) where
  permitted := SecondaryPermitted origin
  returned later
    | .ok reopened => ∃ evidence, later = past ++ evidence ∧ Evidence origin reopened evidence
    | .error .again => Unopened later
    | .error .panicked => Unopened later ∧ Undated later
  faulted later := ∃ before query, later = before ++ [⟨query, none⟩]

section
variable {origin : StartupPublicOrigin} {deadline : Nat} {past later : SecondaryPast}

theorem Unopened.snoc (h : Unopened past) {c : Asked SecondaryCall SecondaryAnswer}
    (hc : ∀ port token, c.query ≠ .openBrowser port token) : Unopened (past ++ [c]) := by
  intro d hd
  rcases List.mem_append.1 hd with hd | hd
  · exact h d hd
  · rw [List.mem_singleton.1 hd]
    exact hc

theorem ensures_ask {query : SecondaryCall} {f : SecondaryAnswer query → Round Reopened}
    (hpermitted : SecondaryPermitted origin later query)
    (h : ∀ answer, Ensures (roundContract origin past) (f answer).run
      (later ++ [⟨query, some answer⟩])) :
    Ensures (roundContract origin past) (ask query >>= f).run later := by
  rw [ensures_attempt]
  unfold ask
  rw [ExceptT.run_mk, ensures_map]
  exact (ensures_call query _).2 ⟨hpermitted, h, later, query, rfl⟩

theorem ensures_requireReturned {R : Type} {result : Outcome (Option R)} {f : R → Round Reopened}
    (hlater : Unopened later) (hpanic : result = .panicked → Undated later)
    (h : ∀ a, result = .returned (some a) → Ensures (roundContract origin past) (f a).run later) :
    Ensures (roundContract origin past) (requireReturned result >>= f).run later := by
  rw [ensures_attempt]
  match result with
  | .panicked => exact ⟨hlater, hpanic rfl⟩
  | .returned none => exact hlater
  | .returned (some a) => exact h a rfl

theorem ensures_require {R : Type} {result : Option R} {f : R → Round Reopened}
    (hlater : Unopened later)
    (h : ∀ a, result = some a → Ensures (roundContract origin past) (f a).run later) :
    Ensures (roundContract origin past) (require result >>= f).run later :=
  ensures_requireReturned hlater (fun hpanic => by cases hpanic) fun a ha =>
    h a (Outcome.returned.inj ha)

theorem decodeResponse_ne_panicked {T : Type} {decode : List UInt8 → Outcome (Option T)}
    (h : ∀ bytes, decode bytes ≠ .panicked) (status : Nat) (frames : List Frame) :
    decodeResponse decode status frames ≠ .panicked := by
  unfold decodeResponse
  split
  · exact fun heq => by cases heq
  · split
    · exact fun heq => by cases heq
    · split
      · next heq => exact absurd heq (h _)
      · exact fun heq => by cases heq
      · exact fun heq => by cases heq

/-- A probe has no time in it. -/
theorem granted_readyProbe (ready : Except LocalClientError (Nat × List Frame)) :
    granted ReadyProbe.fromSlice ready ≠ .panicked := by
  unfold granted
  split
  · exact fun heq => by cases heq
  · next status frames =>
    have hdecode := decodeResponse_ne_panicked (fun bytes heq => by
      cases (heq : ReadyProbe.fromSlice bytes = .panicked)) status frames
    split
    · next heq => exact absurd heq hdecode
    · exact fun heq => by cases heq
    · exact fun heq => by cases heq

theorem ensures_round (h : Unopened past) :
    Ensures (roundContract origin past) (round origin deadline).run past := by
  unfold round
  refine ensures_ask trivial fun read => ?_
  have h := h.snoc (c := ⟨.readDescriptor, some read⟩) fun _ _ => by simp
  refine ensures_requireReturned h (fun hpanic => ?_) fun descriptor hread =>
    ensures_ask trivial fun dead => ?_
  · rw [hpanic]
    exact .descriptor
  have h := h.snoc (c := ⟨.processIsDead descriptor.pid, some dead⟩) fun _ _ => by simp
  refine ensures_require h fun _ halive => ensures_ask trivial fun ready => ?_
  have h := h.snoc (c := ⟨.send descriptor.port (localRequest descriptor .get readyPath) deadline,
    some ready⟩) fun _ _ => by simp
  refine ensures_requireReturned h (fun hpanic => absurd hpanic (granted_readyProbe ready))
    fun probe hprobe => ensures_require h fun _ hsame => ?_
  refine ensures_ask trivial fun reopen => ?_
  have h := h.snoc (c := ⟨.send descriptor.port (localRequest descriptor .post reopenPath) deadline,
    some reopen⟩) fun _ _ => by simp
  refine ensures_requireReturned h .grant fun grant hgrant =>
    ensures_require h fun browserPort hport => ?_
  refine ensures_ask trivial fun now => ?_
  have h := h.snoc (c := ⟨.nowUtc, some now⟩) fun _ _ => by simp
  refine ensures_require h fun token htoken => ?_
  rw [ensures_run_pure]
  subst hread
  have hdead : dead = false := by
    cases dead with
    | true => cases halive
    | false => rfl
  subst hdead
  have hprobed : probe.instanceId = descriptor.instanceId ∧ probe.state = .ready := by
    by_contra hne
    rw [if_neg hne] at hsame
    cases hsame
  have hround := @Evidence.round origin descriptor deadline browserPort token now ready reopen
    probe grant hprobe hprobed hgrant hport htoken
  refine ⟨_, ?_, hround⟩
  simp only [List.append_assoc, List.cons_append, List.nil_append]

theorem Evidence.unopened {r : Reopened} {evidence : SecondaryPast} (h : Evidence origin r evidence) :
    Unopened evidence := by
  cases h
  intro c hc
  simp only [List.mem_cons, List.not_mem_nil, or_false] at hc
  rcases hc with rfl | rfl | rfl | rfl | rfl <;> simp

theorem Unopened.append (h : Unopened past) (hlater : Unopened later) : Unopened (past ++ later) :=
  fun c hc => (List.mem_append.1 hc).elim (h c) (hlater c)

theorem ensures_openBrowserOrReport {r : Reopened} {evidence : SecondaryPast} (h : Unopened past)
    (hevidence : Evidence origin r evidence) :
    Ensures (roundsContract origin deadline) (do
      let browserOpened ← openBrowserOrReport r.browserPort r.token
      pure (some (.returned (.ok { instanceId := r.descriptor.instanceId, browserOpened }))))
      (past ++ evidence) := by
  have hpermitted : SecondaryPermitted origin (past ++ evidence)
      (.openBrowser r.browserPort r.token) :=
    ⟨h.append hevidence.unopened, past, evidence, r.descriptor, rfl, hevidence⟩
  unfold openBrowserOrReport
  rw [ensures_bind, ensures_bind]
  refine (ensures_call (SecondaryCall.openBrowser r.browserPort r.token) _).2
    ⟨hpermitted, fun opened => ?_, _, _, rfl⟩
  cases opened with
  | true => exact Ended.opened rfl hevidence
  | false =>
    show Ensures _ (call (SecondaryCall.showError _ _) >>= _) _
    rw [ensures_bind]
    refine (ensures_call (SecondaryCall.showError _ _) _).2 ⟨trivial, fun _ => ?_, _, _, rfl⟩
    exact Ended.reported (List.append_assoc _ [_] [_]) hevidence

/-- The rounds, by induction on their number. -/
theorem ensures_rounds (n : Nat) (delay : Nat) (h : Unopened past) :
    Ensures (roundsContract origin deadline) (rounds origin deadline n delay) past := by
  induction n generalizing delay past with
  | zero => exact h
  | succ n ih =>
    unfold rounds
    rw [ensures_bind]
    refine (ensures_call SecondaryCall.instantNow _).2 ⟨trivial, fun now => ?_, _, _, rfl⟩
    have h := h.snoc (c := ⟨.instantNow, some now⟩) fun _ _ => by simp
    dsimp only
    split
    · rename_i hover
      exact Ended.unverified h rfl hover
    · rw [ensures_bind]
      refine (ensures_round h).mono (fun _ _ => id) (fun later result hr => ?_) fun _ => id
      cases result with
      | ok reopened =>
        obtain ⟨evidence, rfl, hevidence⟩ := hr
        exact ensures_openBrowserOrReport h hevidence
      | error error =>
        cases error with
        | panicked => exact Ended.panicked hr.1 hr.2
        | again =>
          have h : Unopened later := hr
          show Ensures _ (call SecondaryCall.instantNow >>= _) _
          rw [ensures_bind]
          refine (ensures_call SecondaryCall.instantNow _).2 ⟨trivial, fun now => ?_, _, _, rfl⟩
          have h := h.snoc (c := ⟨.instantNow, some now⟩) fun _ _ => by simp
          dsimp only
          rw [ensures_bind]
          refine (ensures_call (SecondaryCall.sleepUntil _) _).2 ⟨trivial, fun _ => ?_, _, _, rfl⟩
          exact ih _ (h.snoc fun _ _ => by simp)

def secondaryContract (origin : StartupPublicOrigin) :
    Contract SecondaryCall SecondaryAnswer (Option LaunchEnd) where
  permitted := SecondaryPermitted origin
  returned past result := ∃ start, [⟨.instantNow, some start⟩] <+: past ∧
    match result with
    | none => Unopened past
    | some result => Ended origin (start + secondaryDeadline) past result
  faulted past := ∃ before query, past = before ++ [⟨query, none⟩]

theorem ensures_startSecondary (origin : StartupPublicOrigin) (n : Nat) :
    Ensures (secondaryContract origin) (startSecondary origin n) [] := by
  unfold startSecondary
  rw [ensures_bind]
  refine (ensures_call SecondaryCall.instantNow _).2 ⟨trivial, fun start => ?_, [], _, rfl⟩
  have h : Unopened [⟨SecondaryCall.instantNow, some start⟩] := by
    intro c hc
    rw [List.mem_singleton.1 hc]
    simp
  refine (ensures_rounds n secondaryInitialDelay h).extend.mono (fun _ _ => id) (fun later result hr => ?_)
    fun _ hf => hf.2
  refine ⟨start, hr.1, ?_⟩
  cases result with
  | none => exact hr.2
  | some result => exact hr.2

/-- **A second launch is sound.** Whatever is answered, the browser is opened
once at most, and the five questions before that are the descriptor, whether
its process is dead, whether the process is ready, the grant and the clock,
with answers that agree. The launch ends with the browser opened, the address
shown, the deadline over, or a panic: on a time that is no date in UTC. -/
theorem secondary_sound (origin : StartupPublicOrigin) (n : Nat) :
    (∀ past port token, (startSecondary origin n).Asks past (.openBrowser port token) →
      Unopened past ∧ ∃ before evidence descriptor,
        past = before ++ evidence ∧ Evidence origin ⟨descriptor, port, token⟩ evidence) ∧
    ∀ past result, (startSecondary origin n).Returns past (some result) →
      ∃ start, [⟨.instantNow, some start⟩] <+: past ∧
        Ended origin (start + secondaryDeadline) past result :=
  ⟨fun _ _ _ h => (ensures_startSecondary origin n).asks h,
    fun _ _ h => (ensures_startSecondary origin n).returns h⟩

/-! ## The end of a launch -/

/-- The clock has come to this instant. -/
def Past (past : SecondaryPast) (t : Nat) : Prop :=
  ⟨.instantNow, some t⟩ ∈ past ∨ ⟨.sleepUntil t, some ()⟩ ∈ past

/-- The clock does not go back, and a sleep lasts. -/
def Clocked (past : SecondaryPast) : Prop :=
  ∀ before now after, past = before ++ ⟨.instantNow, some now⟩ :: after → ∀ t, Past before t → t ≤ now

/-- The sleeps between a number of rounds. -/
def budget : Nat → Nat → Nat
  | 0, _ | 1, _ => 0
  | n + 2, delay => delay + budget (n + 1) (min (delay * 2) secondaryMaxDelay)

def clockContract : Contract SecondaryCall SecondaryAnswer (Option LaunchEnd) where
  permitted _ _ := True
  returned past result := result = none → ¬Clocked past
  faulted _ := True

theorem Clocked.le {now t : Nat} (h : Clocked later)
    (hle : past ++ [⟨.instantNow, some now⟩] <+: later) (ht : Past past t) : t ≤ now := by
  obtain ⟨after, rfl⟩ := hle
  exact h past now after (by simp) t ht

/-- Where the clock went back nothing is asked of the program. -/
theorem ensures_unclocked
    (p : Program SecondaryCall SecondaryAnswer (Option LaunchEnd))
    (h : ∀ later, past <+: later → ¬Clocked later) : Ensures clockContract p past :=
  (ensures_extends p past).mono (fun _ _ => id) (fun later _ hle _ => h later hle) fun _ _ => trivial

/-- A reading of the clock. -/
theorem ensures_instantNow {t : Nat} {f : Nat → Program SecondaryCall SecondaryAnswer
      (Option LaunchEnd)} (ht : Past past t)
    (h : ∀ now, t ≤ now → Ensures clockContract (f now) (past ++ [⟨.instantNow, some now⟩])) :
    Ensures clockContract (call SecondaryCall.instantNow >>= f) past := by
  rw [ensures_bind]
  refine (ensures_call SecondaryCall.instantNow _).2 ⟨trivial, fun now => ?_, trivial⟩
  by_cases hle : t ≤ now
  · exact h now hle
  · exact ensures_unclocked _ fun later hlater hclock => hle (hclock.le hlater ht)

/-- After the rounds the deadline is over: every round sleeps, or ends the
launch. -/
theorem ensures_rounds_end (n delay : Nat) {t : Nat} (ht : Past past t)
    (hbudget : deadline ≤ t + budget (n + 1) delay) :
    Ensures clockContract (rounds origin deadline (n + 1) delay) past := by
  induction n generalizing delay past t with
  | zero =>
    unfold rounds
    refine ensures_instantNow ht fun now hnow => ?_
    have hover : deadline ≤ now := by
      unfold budget at hbudget
      omega
    rw [if_pos hover]
    exact fun hnone => by cases hnone
  | succ n ih =>
    unfold rounds
    refine ensures_instantNow ht fun now hnow => ?_
    split
    · exact fun hnone => by cases hnone
    · rw [ensures_bind]
      refine (ensures_extends _ _).mono (fun _ _ => id) (fun later result hle => ?_)
        fun _ _ => trivial
      have hlater : Past later now := .inl (hle.subset (by simp))
      cases result with
      | ok reopened =>
        show Ensures _ (openBrowserOrReport _ _ >>= _) _
        rw [ensures_bind]
        exact (ensures_extends _ _).mono (fun _ _ => id) (fun _ _ _ hnone => by cases hnone)
          fun _ _ => trivial
      | error error =>
        cases error with
        | panicked => exact fun hnone => by cases hnone
        | again =>
          refine ensures_instantNow hlater fun now' hnow' => ?_
          rw [ensures_bind]
          refine (ensures_call (SecondaryCall.sleepUntil _) _).2 ⟨trivial, fun _ => ?_, trivial⟩
          refine ih _ (.inr (List.mem_append_right _ (List.mem_singleton_self _))) ?_
          rw [budget] at hbudget
          omega

/-- What sixteen rounds sleep. -/
theorem budget_enough : secondaryDeadline ≤ budget 16 secondaryInitialDelay := by decide

/-- **A second launch ends.** Whatever the other answers are, it is over after
sixteen rounds, if the clock does not go back and sleeps last; and it ends as
every launch does. -/
theorem secondary_ends {result : Option LaunchEnd}
    (h : (startSecondary origin 16).Returns past result) (hclock : Clocked past) :
    ∃ ended start, result = some ended ∧ [⟨.instantNow, some start⟩] <+: past ∧
      Ended origin (start + secondaryDeadline) past ended := by
  have hensures : Ensures clockContract (startSecondary origin 16) [] := by
    unfold startSecondary
    rw [ensures_bind]
    refine (ensures_call SecondaryCall.instantNow _).2 ⟨trivial, fun start => ?_, trivial⟩
    refine ensures_rounds_end 15 _ (.inl (List.mem_singleton_self _)) ?_
    exact Nat.add_le_add_left budget_enough start
  cases result with
  | none => exact absurd hclock (hensures.returns h rfl)
  | some ended =>
    obtain ⟨start, hstart, hended⟩ := (secondary_sound origin 16).2 past ended h
    exact ⟨ended, start, rfl, hstart, hended⟩

/-! ## A launch that finds no descriptor -/

/-- The questions of a round that finds no descriptor, and its sleep. -/
def missedRound (deadline now delay : Nat) : SecondaryPast :=
  [⟨.instantNow, some now⟩, ⟨.readDescriptor, some (.returned none)⟩, ⟨.instantNow, some now⟩,
    ⟨.sleepUntil (min (now + delay) deadline), some ()⟩]

/-- Rounds from an instant on, each in no time, and a last look at the clock. -/
def missedRounds (deadline : Nat) : Nat → Nat → Nat → SecondaryPast
  | 0, now, _ => [⟨.instantNow, some now⟩]
  | n + 1, now, delay => missedRound deadline now delay ++
    missedRounds deadline n (min (now + delay) deadline) (min (delay * 2) secondaryMaxDelay)

/-- The deadline is over after this many rounds, and not before. -/
def OverAfter (deadline : Nat) : Nat → Nat → Nat → Prop
  | 0, now, _ => deadline ≤ now
  | n + 1, now, delay => now < deadline ∧
    OverAfter deadline n (min (now + delay) deadline) (min (delay * 2) secondaryMaxDelay)

/-- One question of a launch. -/
theorem steps_asked {R : Type} {p : Program SecondaryCall SecondaryAnswer R} (query : SecondaryCall)
    (a : SecondaryAnswer query)
    {next : Option (SecondaryAnswer query) → Program SecondaryCall SecondaryAnswer R}
    {rest : SecondaryPast} (h : Steps (next (some a)) rest p) :
    Steps (.ask query next) (⟨query, some a⟩ :: rest) p := .ask (some a) h

theorem steps_missedRound (origin : StartupPublicOrigin) {now : Nat} (n delay : Nat)
    (h : now < deadline) : Steps (rounds origin deadline (n + 1) delay)
      (missedRound deadline now delay)
      (rounds origin deadline n (min (delay * 2) secondaryMaxDelay)) := by
  rw [rounds, missedRound]
  refine steps_asked .instantNow now ?_
  show Steps (if deadline ≤ now then _ else _) _ _
  rw [if_neg (Nat.not_le.2 h)]
  exact steps_asked .readDescriptor (.returned none) (steps_asked .instantNow now
    (steps_asked (.sleepUntil _) () (.nil _)))

/-- Rounds that find nothing go on until the deadline is over. -/
theorem returns_missedRounds (origin : StartupPublicOrigin) {n now delay : Nat}
    (h : OverAfter deadline n now delay) :
    (rounds origin deadline (n + 1) delay).Returns (missedRounds deadline n now delay)
      (some (.returned (.error .primaryUnverified))) := by
  induction n generalizing now delay with
  | zero =>
    have hover : deadline ≤ now := h
    rw [rounds, missedRounds]
    refine steps_asked .instantNow now ?_
    show Steps (if deadline ≤ now then _ else _) _ _
    rw [if_pos hover]
    exact .nil _
  | succ n ih => exact (steps_missedRound origin (n + 1) delay h.1).trans (ih h.2)

/-- No reading of the clock is before an instant it has come to, this one included. -/
def clockedFrom : Nat → SecondaryPast → Bool
  | _, [] => true
  | t, ⟨.instantNow, some now⟩ :: rest => t ≤ now && clockedFrom now rest
  | t, ⟨.sleepUntil wake, some ()⟩ :: rest => clockedFrom (max t wake) rest
  | t, _ :: rest => clockedFrom t rest

theorem le_of_clockedFrom {t now : Nat} {before after : SecondaryPast}
    (h : clockedFrom t (before ++ ⟨.instantNow, some now⟩ :: after) = true) :
    t ≤ now ∧ ∀ u, Past before u → u ≤ now := by
  induction before generalizing t with
  | nil =>
    rw [List.nil_append, clockedFrom, Bool.and_eq_true, decide_eq_true_iff] at h
    refine ⟨h.1, fun u hu => ?_⟩
    rcases hu with hu | hu <;> cases hu
  | cons c before ih =>
    rw [List.cons_append] at h
    have hpast : ∀ u, Past (c :: before) u →
        c = ⟨.instantNow, some u⟩ ∨ c = ⟨.sleepUntil u, some ()⟩ ∨ Past before u := by
      rintro u (hu | hu)
      · exact (List.mem_cons.1 hu).elim (fun heq => .inl heq.symm) fun hu => .inr (.inr (.inl hu))
      · exact (List.mem_cons.1 hu).elim (fun heq => .inr (.inl heq.symm))
          fun hu => .inr (.inr (.inr hu))
    unfold clockedFrom at h
    split at h
    · next heq => cases heq
    · next heq =>
      cases heq
      rw [Bool.and_eq_true, decide_eq_true_iff] at h
      obtain ⟨hle, hall⟩ := ih h.2
      refine ⟨Nat.le_trans h.1 hle, fun u hu => ?_⟩
      rcases hpast u hu with heq | heq | hu
      · cases heq
        exact hle
      · cases heq
      · exact hall u hu
    · next heq =>
      cases heq
      obtain ⟨hle, hall⟩ := ih h
      refine ⟨Nat.le_trans (Nat.le_max_left _ _) hle, fun u hu => ?_⟩
      rcases hpast u hu with heq | heq | hu
      · cases heq
      · cases heq
        exact Nat.le_trans (Nat.le_max_right _ _) hle
      · exact hall u hu
    · next hnow hsleep heq =>
      cases heq
      obtain ⟨hle, hall⟩ := ih h
      refine ⟨hle, fun u hu => ?_⟩
      rcases hpast u hu with rfl | rfl | hu
      · exact (hnow _ rfl).elim
      · exact (hsleep _ rfl).elim
      · exact hall u hu

end

def isSleep : SecondaryCall → Bool
  | .sleepUntil _ => true
  | _ => false

/-- A launch that finds no descriptor for ten seconds: fifteen rounds, each with its sleep. -/
def sampleMissed : SecondaryPast := ⟨.instantNow, some (0 : Nat)⟩ :: missedRounds 10000 15 0 25

theorem secondary_ends_unverified :
    (sampleMissed.filter fun c => isSleep c.query).length = 15 ∧
    ∃ start, [⟨.instantNow, some start⟩] <+: sampleMissed ∧
      Ended .listener (start + secondaryDeadline) sampleMissed
        (.returned (.error .primaryUnverified)) := by
  have hover : OverAfter 10000 15 0 25 := by
    simp only [OverAfter, secondaryMaxDelay]
    decide
  have hreturns : (startSecondary .listener 16).Returns sampleMissed
      (some (.returned (.error .primaryUnverified))) :=
    steps_asked .instantNow (0 : Nat) (returns_missedRounds .listener hover)
  have hclock : clockedFrom 0 sampleMissed = true := by decide +kernel
  refine ⟨by decide +kernel, ?_⟩
  obtain ⟨ended, start, heq, hstart, hended⟩ := secondary_ends hreturns
    fun before now after hpast t ht => (le_of_clockedFrom (hpast ▸ hclock)).2 t ht
  obtain rfl := Option.some.inj heq
  exact ⟨start, hstart, hended⟩

end CodingAgent.L4.App.Secondary
