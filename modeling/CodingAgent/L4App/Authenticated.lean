import CodingAgent.L4App.Authorization
import CodingAgent.L4App.RuntimeContract

/-!
# The router in front of the security manager (`coding-agent-app/src/{server,security}.rs`)

The checks the router asks for, answered by the manager: each by a state of a
run of it, `authorize_mutation` by two of them. From there every backend
operation goes back to a session, and the session to a launch token that was
issued and spent once.

* `Served`: the answers of the manager.
* `operation_authenticated`: who an operation is done for.
-/
namespace CodingAgent.L4.App.Runtime
open CodingAgent.L3.Api.Http CodingAgent.L3.Api.Router Program
open Security (Crates Config SecurityState SessionRecord LaunchTokenRecord Carries PresentsSession
  Created Accepted security security_sound)

/-! ## The manager as the port -/

/-- An `ApiError` of the manager has no details. -/
def securityError (error : Security.ApiError) : ApiError where
  status := error.status
  code := error.code
  message := error.message
  retryable := error.retryable
  details := []

/-- The headers are all the manager reads of a request. -/
def securityParts (parts : Parts) : Security.Parts where
  headers := parts.headers

section
variable (crates : Crates) (config : Config)

def invalidLauncherSecret : Security.ApiError :=
  Security.securityError 401 "SECURITY_INVALID_LAUNCHER_SECRET"
    "The launcher secret is missing or invalid."

/-- mirrors crates/coding-agent-app/src/security.rs:287-295 -/
def authorizeLauncher (launcherSecret : String) (parts : Security.Parts) :
    Except Security.ApiError Unit := do
  Security.validateHost crates config parts
  let presented ← Security.requiredHeader crates parts "x-launcher-secret" invalidLauncherSecret
  if Security.secretMatches crates launcherSecret presented then .ok ()
  else .error invalidLauncherSecret

/-- The answer of a check, where it is one of the manager's. -/
def Served : Asked RuntimeCall RuntimeAnswer → Prop
  | ⟨.api (.validateHost parts), some answer⟩ =>
    answer = (Security.validateHost crates config (securityParts parts)).mapError securityError
  | ⟨.api (.authorizeRead parts), some answer⟩ =>
    ∃ s, (security crates config).Reachable s ∧
      answer = ((Security.authorizeRead crates config s.sessions (securityParts parts)).mapError
        securityError).map fun auth => ⟨auth.sessionId⟩
  | ⟨.api (.authorizeMutation parts), some answer⟩ =>
    ∃ s ls s', (security crates config).Reachable s ∧ (security crates config).Run s ls s' ∧
      answer = ((Security.authorizeMutation crates config s.sessions s'.sessions
        (securityParts parts)).mapError securityError).map fun auth => ⟨auth.sessionId⟩
  | _ => True

/-- The session a request acts for, with the launch token it came from. -/
structure Authentic (parts : Parts) (sessionId : String) (mutation : Bool) (s : SecurityState)
    (session : SessionRecord) (token : LaunchTokenRecord) : Prop where
  reachable : (security crates config).Reachable s
  created : Created s session
  identified : session.sessionId = sessionId
  presented : PresentsSession crates (securityParts parts) sessionId
  host : Carries (securityParts parts) "host" config.expectedHost
  confirmed : mutation = true → Carries (securityParts parts) "origin" config.publicOrigin ∧
    Carries (securityParts parts) "x-csrf-token" session.csrfToken
  issued : token ∈ s.everIssued
  /-- one exchange spent the token, in time and from the right `Host` and
  `Origin`, and this is its session -/
  exchanged : ∃ i parts exchange, Accepted s i parts token.token exchange ∧
    exchange.session = session ∧
    exchange.now < token.issuedAt + Security.launchTokenLifetime ∧
    Carries parts "host" config.expectedHost ∧ Carries parts "origin" config.publicOrigin ∧
    ∀ j parts' exchange', Accepted s j parts' token.token exchange' → j = i

end

section
variable {crates : Crates} {config : Config} {s : SecurityState} {parts : Parts}

/-- The launcher is who has the secret, and the `Host` of the listener. -/
theorem authorizeLauncher_eq_ok {secret : Security.Secret} {parts : Security.Parts} :
    authorizeLauncher crates config (crates.base64.encode secret.val) parts = .ok () ↔
      Carries parts "host" config.expectedHost ∧
        Carries parts "x-launcher-secret" (crates.base64.encode secret.val) := by
  have hhost : Security.validateHost crates config parts = .ok () ↔ _ := Security.validateHost_eq_ok
  rw [← hhost]
  unfold authorizeLauncher
  cases Security.validateHost crates config parts with
  | error e => exact ⟨fun h => (by cases h), fun h => (by cases h.1)⟩
  | ok _ =>
    have hpresented : Security.requiredHeader crates parts "x-launcher-secret"
        invalidLauncherSecret = .ok (crates.base64.encode secret.val) ↔ _ :=
      Security.requiredHeader_eq_ok
    cases hheader : Security.requiredHeader crates parts "x-launcher-secret"
        invalidLauncherSecret with
    | error e =>
      refine ⟨fun h => (by cases h), fun h => ?_⟩
      rw [hheader] at hpresented
      cases hpresented.2 ⟨crates.base64.visible _, h.2⟩
    | ok presented =>
      show (if Security.secretMatches crates _ presented then Except.ok () else .error _) = .ok () ↔ _
      rw [hheader] at hpresented
      constructor
      · intro h
        split at h
        · rename_i hmatches
          rw [(Security.secretMatches_encode secret presented).1 hmatches] at hpresented
          exact ⟨rfl, (hpresented.1 rfl).2⟩
        · cases h
      · intro h
        have heq := Except.ok.inj (hpresented.2 ⟨crates.base64.visible _, h.2⟩)
        rw [if_pos ((Security.secretMatches_encode secret presented).2 heq)]

/-- Every session goes back to one launch token. -/
theorem created_token (hr : (security crates config).Reachable s) {session : SessionRecord}
    (hc : Created s session) : ∃ token ∈ s.everIssued, ∃ i parts exchange,
      Accepted s i parts token.token exchange ∧ exchange.session = session ∧
      exchange.now < token.issuedAt + Security.launchTokenLifetime ∧
      Carries parts "host" config.expectedHost ∧ Carries parts "origin" config.publicOrigin ∧
      ∀ j parts' exchange', Accepted s j parts' token.token exchange' → j = i := by
  have h := security_sound.reachable s hr
  obtain ⟨i, parts, text, exchange, hi, heq⟩ := hc
  have hcall : s.calls i = .exchanged parts text (.ok exchange) := hi
  have hspent := h.tokens.spent i text exchange.now (by rw [hcall]; rfl)
  have hvalid := Security.validate_eq_ok.1 (h.tokens.valid i parts (by rw [hcall]; rfl))
  obtain ⟨token, hmem, rfl, hlt⟩ := hspent.issued
  rw [h.tokens.lifetime token hmem] at hlt
  refine ⟨token, hmem, i, parts, exchange, hi, heq, hlt, hvalid.1, hvalid.2, ?_⟩
  intro j parts' exchange' hj
  have hcall' : s.calls j = .exchanged parts' token.token (.ok exchange') := hj
  exact hspent.once j exchange'.now (by rw [hcall']; rfl)

/-- An answer that is a result is the manager's result. -/
theorem map_mapError_eq_ok {α β : Type} {x : Except Security.ApiError α} {f : α → β} {b : β}
    (h : .ok b = (x.mapError securityError).map f) : ∃ a, x = .ok a ∧ b = f a := by
  cases x with
  | error error => cases h
  | ok a =>
    cases h
    exact ⟨a, rfl, rfl⟩

theorem authentic_read {auth : AuthContext}
    (h : Served crates config ⟨.api (.authorizeRead parts), some (.ok auth)⟩) :
    ∃ s session token, Authentic crates config parts auth.sessionId false s session token := by
  obtain ⟨s, hr, hanswer⟩ := h
  obtain ⟨auth', hread, rfl⟩ := map_mapError_eq_ok hanswer
  obtain ⟨hhost, session, hc, hp, rfl⟩ :=
    (Security.authorizeRead_eq_ok (security_sound.reachable s hr)).1 hread
  obtain ⟨token, hissued, hexchanged⟩ := created_token hr hc
  exact ⟨s, session, token, hr, hc, rfl, hp, hhost, fun h => (by cases h), hissued, hexchanged⟩

theorem authentic_mutation {auth : AuthContext}
    (h : Served crates config ⟨.api (.authorizeMutation parts), some (.ok auth)⟩) :
    ∃ s session token, Authentic crates config parts auth.sessionId true s session token := by
  obtain ⟨s, ls, s', hr, hrun, hanswer⟩ := h
  obtain ⟨auth', hmutation, rfl⟩ := map_mapError_eq_ok hanswer
  obtain ⟨hhost, horigin, session, hc, hp, hcsrf, rfl⟩ :=
    (Security.authorizeMutation_eq_ok hr hrun).1 hmutation
  obtain ⟨token, hissued, hexchanged⟩ := created_token hr hc
  exact ⟨s, session, token, hr, hc, rfl, hp, hhost, fun _ => ⟨horigin, hcsrf⟩, hissued, hexchanged⟩

/-- What was asked of the API was asked of the process. -/
theorem mem_of_apiPast {past : RuntimePast} {call : Call} {answer : Option (Answer call)}
    (h : ⟨call, answer⟩ ∈ apiPast past) : ⟨.api call, answer⟩ ∈ past := by
  unfold apiPast at h
  obtain ⟨c, hc, heq⟩ := List.mem_filterMap.1 h
  match c, heq with
  | ⟨.api _, _⟩, heq =>
    cases heq
    exact hc

/-- **Every operation is done for a session.** Wherever the checks are those of
the manager, a request that gets as far as a backend operation presents the
cookie of a session that exists, a mutation its CSRF token too, and that
session was bought with a launch token of its own. -/
theorem operation_authenticated {env : RuntimeState} {past : RuntimePast} {auth : AuthContext}
    {operation : Operation} (hserved : ∀ c ∈ past, Served crates config c)
    (h : (runtimeRouter env parts).Asks past (.api (.backend auth operation))) :
    ∃ s session token,
      Authentic crates config parts auth.sessionId operation.mutates s session token := by
  have hauthority : Authority parts (apiPast past) auth operation :=
    ((runtimeRouter_ensures env parts).asks h).2
  have hauthorized := hauthority.authorized
  unfold Authorized at hauthorized
  cases hmutates : operation.mutates with
  | false =>
    rw [hmutates] at hauthorized
    exact authentic_read (hserved _ (mem_of_apiPast hauthorized))
  | true =>
    rw [hmutates] at hauthorized
    exact authentic_mutation (hserved _ (mem_of_apiPast hauthorized))

end

/-! ## A run -/

/-- The bootstrap of a session. -/
def sampleBootstrap (session : SessionRecord) : Parts where
  method := .get
  path := "/api/bootstrap"
  query := none
  headers := (Security.sampleRequest session).headers

/-- The manager, in one state. -/
def managerAnswer (s : SecurityState) : (q : RuntimeCall) → Option (RuntimeAnswer q)
  | .api (.validateHost parts) => some ((Security.validateHost Security.sampleCrates
      Security.sampleConfig (securityParts parts)).mapError securityError)
  | .api (.authorizeRead parts) => some (((Security.authorizeRead Security.sampleCrates
      Security.sampleConfig s.sessions (securityParts parts)).mapError securityError).map
      fun auth => ⟨auth.sessionId⟩)
  | .api (.authorizeMutation _) => none
  | q => sampleAnswer q

theorem operation_authenticated_bootstrap : ∃ s session token, Authentic Security.sampleCrates
    Security.sampleConfig (sampleBootstrap ⟨Security.sampleCrates.base64.encode
      (Security.sampleSecret 3).val, Security.sampleCrates.base64.encode
      (Security.sampleSecret 4).val⟩) (Security.sampleCrates.base64.encode
      (Security.sampleSecret 3).val) false s session token := by
  let session : SessionRecord := ⟨Security.sampleCrates.base64.encode (Security.sampleSecret 3).val,
    Security.sampleCrates.base64.encode (Security.sampleSecret 4).val⟩
  have hrun : (LTS.exec (SecurityState.next Security.sampleCrates Security.sampleConfig)
      (SecurityState.fromSeed Security.sampleCrates (Security.sampleSecret 1)
        (Security.sampleSecret 2) 0) Security.sampleExchanges).map (fun s =>
      ((runtimeRouter sampleState (sampleBootstrap session)).play (managerAnswer s)).1.any
        fun c => c.query = .api (.backend ⟨session.sessionId⟩ .bootstrap)) = some true := by
    decide +kernel
  obtain ⟨s, hs, hany⟩ := Option.map_eq_some_iff.1 hrun
  have hr : (security Security.sampleCrates Security.sampleConfig).Reachable s :=
    LTS.reachable_of_exec ⟨_, _, 0, by decide, rfl⟩ hs
  obtain ⟨c, hc, hquery⟩ := List.any_eq_true.1 hany
  obtain ⟨past, hpast, hasks⟩ := asks_of_play hc
  rw [of_decide_eq_true hquery] at hasks
  refine operation_authenticated (fun b hb => ?_) hasks
  have hanswer := hpast b hb
  obtain ⟨query, answer⟩ := b
  dsimp only at hanswer
  subst hanswer
  match query with
  | .api (.validateHost _) => exact rfl
  | .api (.authorizeRead _) => exact ⟨s, hr, rfl⟩
  | .api (.authorizeMutation _) => exact trivial
  | .api .newV4 | .api .body | .api (.exchange _ _) | .api (.backend _ _) | .phase
  | .authorizeLauncher _ | .nowUtc | .issueLaunchToken => exact trivial

end CodingAgent.L4.App.Runtime
