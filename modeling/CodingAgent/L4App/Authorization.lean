import CodingAgent.Core.Fallible
import CodingAgent.L4App.LaunchTokens

/-!
# Authorization of a request

* `PresentsSession`: what a Cookie header must be to name a session.
* `authorization_sound`: which requests are authorized in a reachable state, as
  which session, and that no other session has a part in it.
-/
namespace CodingAgent.L4.App.Security
open CodingAgent.Base64 Fallible SecurityState

variable {crates : Crates} {config : Config} {s s' : SecurityState}

/-! ## The session cookie -/

/-- The request carries one Cookie header; its pairs all parse, and one of them
is the session cookie, with this value. -/
def PresentsSession (crates : Crates) (parts : Parts) (sessionId : String) : Prop :=
  ∃ (text : String) (cookies : List Cookie), IsText text ∧ Carries parts "cookie" text ∧
    crates.splitParse text = cookies.map some ∧
    (cookies.filter fun cookie => cookie.name = sessionCookieName).map (·.value) = [sessionId]

theorem sessionCookieLoop_eq_ok {found : Option String} {pairs : List (Option Cookie)}
    {value : String} : sessionCookieLoop found pairs = .ok value ↔
      ∃ cookies : List Cookie, pairs = cookies.map some ∧ found.toList ++
        (cookies.filter fun cookie => cookie.name = sessionCookieName).map (·.value) = [value] := by
  induction pairs generalizing found with
  | nil =>
    cases found with
    | none =>
      constructor
      · intro h
        cases h
      · rintro ⟨cookies, hpairs, hvalue⟩
        rw [List.map_eq_nil_iff.1 hpairs.symm] at hvalue
        cases hvalue
    | some v =>
      constructor
      · intro h
        cases h
        exact ⟨[], rfl, rfl⟩
      · rintro ⟨cookies, hpairs, hvalue⟩
        rw [List.map_eq_nil_iff.1 hpairs.symm] at hvalue
        cases hvalue
        rfl
  | cons pair rest ih =>
    cases pair with
    | none =>
      constructor
      · intro h
        cases h
      · rintro ⟨cookies, hpairs, -⟩
        cases cookies with
        | nil => cases hpairs
        | cons c cookies => cases (List.cons.inj hpairs).1
    | some cookie =>
      have hsplit : ∀ P : List Cookie → Prop,
          (∃ cookies : List Cookie, some cookie :: rest = cookies.map some ∧ P cookies) ↔
            ∃ cookies : List Cookie, rest = cookies.map some ∧ P (cookie :: cookies) := by
        intro P
        constructor
        · rintro ⟨cookies, hpairs, hP⟩
          cases cookies with
          | nil => cases hpairs
          | cons c cookies =>
            obtain ⟨hc, hrest⟩ := List.cons.inj hpairs
            cases hc
            exact ⟨cookies, hrest, hP⟩
        · rintro ⟨cookies, rfl, hP⟩
          exact ⟨cookie :: cookies, rfl, hP⟩
      rw [hsplit, sessionCookieLoop]
      by_cases hname : cookie.name = sessionCookieName
      · rw [if_neg (not_not.2 hname)]
        have hfilter : ∀ cookies : List Cookie, ((cookie :: cookies).filter fun cookie =>
            cookie.name = sessionCookieName).map (·.value) = cookie.value ::
              (cookies.filter fun cookie => cookie.name = sessionCookieName).map (·.value) := by
          intro cookies
          simp [hname]
        simp only [hfilter]
        cases found with
        | none =>
          rw [if_neg (by simp), ih]
          rfl
        | some v =>
          rw [if_pos (by simp)]
          constructor
          · intro h
            cases h
          · rintro ⟨cookies, -, hvalue⟩
            cases (List.cons.inj hvalue).2
      · rw [if_pos hname, ih]
        have hfilter : ∀ cookies : List Cookie, ((cookie :: cookies).filter fun cookie =>
            cookie.name = sessionCookieName) =
              cookies.filter fun cookie => cookie.name = sessionCookieName :=
          fun cookies => by simp [hname]
        simp only [hfilter]

/-- What `authorize_session` looks up. -/
theorem presented_eq_ok {parts : Parts} {sessionId : String} :
    (do let cookieHeader ← requiredHeader crates parts "cookie" invalidSession
        sessionCookieValue crates cookieHeader) = .ok sessionId ↔
      PresentsSession crates parts sessionId := by
  rw [bind_eq_ok]
  constructor
  · rintro ⟨text, hheader, hvalue⟩
    obtain ⟨htext, hcarries⟩ := requiredHeader_eq_ok.1 hheader
    obtain ⟨cookies, hpairs, hcookie⟩ := sessionCookieLoop_eq_ok.1 hvalue
    exact ⟨text, cookies, htext, hcarries, hpairs, hcookie⟩
  · rintro ⟨text, cookies, htext, hcarries, hpairs, hcookie⟩
    exact ⟨text, requiredHeader_eq_ok.2 ⟨htext, hcarries⟩,
      sessionCookieLoop_eq_ok.2 ⟨cookies, hpairs, hcookie⟩⟩

theorem PresentsSession.eq {parts : Parts} {a b : String} (ha : PresentsSession crates parts a)
    (hb : PresentsSession crates parts b) : a = b :=
  Except.ok.inj ((presented_eq_ok.2 ha).symm.trans (presented_eq_ok.2 hb))

/-! ## The session -/

/-- The session of a successful exchange. -/
def Created (s : SecurityState) (session : SessionRecord) : Prop :=
  ∃ i parts token exchange, Accepted s i parts token exchange ∧ exchange.session = session

theorem session?_eq_some {pc : CallPc} {session : SessionRecord} :
    pc.session? = some session ↔ ∃ parts token exchange,
      pc = .exchanged parts token (.ok exchange) ∧ exchange.session = session := by
  constructor
  · intro h
    unfold CallPc.session? at h
    split at h
    · exact ⟨_, _, _, rfl, Option.some.inj h⟩
    · cases h
  · rintro ⟨parts, token, exchange, rfl, rfl⟩
    rfl

theorem created_iff (h : Sound crates config s) {session : SessionRecord} :
    Created s session ↔ ∃ e ∈ s.sessions, e.2 = session := by
  rw [h.sessions.created]
  simp only [session?_eq_some]
  rfl

theorem created_text (h : Sound crates config s) {session : SessionRecord}
    (hc : Created s session) : (∃ secret : Secret, session.sessionId = crates.base64.encode secret.val) ∧
      ∃ secret : Secret, session.csrfToken = crates.base64.encode secret.val := by
  obtain ⟨e, he, rfl⟩ := (created_iff h).1 hc
  have hplaced : ∀ text ∈ [e.2.sessionId, e.2.csrfToken],
      ∃ secret : Secret, text = crates.base64.encode secret.val := by
    intro text htext
    have hmem : text ∈ s.placed :=
      List.mem_append_right _ (List.mem_flatMap.2 ⟨e, he, htext⟩)
    obtain ⟨secret, -, heq⟩ := h.secrets.texts 0 _ (List.mem_append_right _ hmem)
    exact ⟨secret, heq⟩
  exact ⟨hplaced _ List.mem_cons_self, hplaced _ (List.mem_cons_of_mem _ List.mem_cons_self)⟩

/-- The lookup finds the session of that id. -/
theorem findSession_eq_some (h : Sound crates config s) {presented : String}
    {session : SessionRecord} : findSession crates s.sessions presented = some session ↔
      Created s session ∧ session.sessionId = presented := by
  have hmatches : ∀ e ∈ s.sessions,
      (secretMatches crates e.2.sessionId presented = true ↔ e.2.sessionId = presented) := by
    intro e he
    obtain ⟨⟨secret, heq⟩, -⟩ := created_text h ((created_iff h).2 ⟨e, he, rfl⟩)
    rw [heq, secretMatches_encode, eq_comm]
  constructor
  · intro hfound
    rcases foldl_last_some hfound with hnone | ⟨e, he, hmatch, rfl⟩
    · cases hnone
    · exact ⟨(created_iff h).2 ⟨e, he, rfl⟩, (hmatches e he).1 hmatch⟩
  · rintro ⟨hc, rfl⟩
    obtain ⟨e, he, heq⟩ := (created_iff h).1 hc
    cases hfound : findSession crates s.sessions session.sessionId with
    | none =>
      refine absurd ((hmatches e he).2 ?_) ((foldl_last_none hfound).2 e he)
      rw [heq]
    | some found =>
      rcases foldl_last_some hfound with hnone | ⟨e', he', hmatch, rfl⟩
      · cases hnone
      · rw [sessions_inj h ⟨e', he', rfl⟩ ⟨e, he, heq⟩ (.inl ((hmatches e' he').1 hmatch))]

theorem authorizeSession_eq_ok (h : Sound crates config s) {parts : Parts}
    {session : SessionRecord} : authorizeSession crates s.sessions parts = .ok session ↔
      Created s session ∧ PresentsSession crates parts session.sessionId := by
  unfold authorizeSession
  rw [← presented_eq_ok, bind_eq_ok, bind_eq_ok]
  constructor
  · rintro ⟨text, hheader, hrest⟩
    obtain ⟨presented, hvalue, hfind⟩ := bind_eq_ok.1 hrest
    split at hfind
    · rename_i found hfound
      cases hfind
      obtain ⟨hc, rfl⟩ := (findSession_eq_some h).1 hfound
      exact ⟨hc, text, hheader, hvalue⟩
    · cases hfind
  · rintro ⟨hc, text, hheader, hvalue⟩
    refine ⟨text, hheader, bind_eq_ok.2 ⟨_, hvalue, ?_⟩⟩
    rw [(findSession_eq_some h).2 ⟨hc, rfl⟩]

theorem authorizeRead_eq_ok (h : Sound crates config s) {parts : Parts} {auth : AuthContext} :
    authorizeRead crates config s.sessions parts = .ok auth ↔
      Carries parts "host" config.expectedHost ∧ ∃ session, Created s session ∧
        PresentsSession crates parts session.sessionId ∧ auth = ⟨session.sessionId⟩ := by
  unfold authorizeRead
  rw [bind_eq_ok]
  constructor
  · rintro ⟨⟨⟩, hhost, hrest⟩
    obtain ⟨session, hsession, hauth⟩ := bind_eq_ok.1 hrest
    cases hauth
    obtain ⟨hc, hp⟩ := (authorizeSession_eq_ok h).1 hsession
    exact ⟨validateHost_eq_ok.1 hhost, session, hc, hp, rfl⟩
  · rintro ⟨hhost, session, hc, hp, rfl⟩
    exact ⟨(), validateHost_eq_ok.2 hhost,
      bind_eq_ok.2 ⟨session, (authorizeSession_eq_ok h).2 ⟨hc, hp⟩, rfl⟩⟩

/-! ## The second lookup -/

/-- An accepted exchange takes no further step. -/
theorem accepted_step {i : Nat} {parts : Parts} {token : String} {exchange : SessionExchange}
    (hs : Step crates config s s') (hi : Accepted s i parts token exchange) :
    Accepted s' i parts token exchange := by
  have hput : ∀ {t : SecurityState} {j : Nat} {pc pc' : CallPc}, t.calls = s.calls →
      s.calls j = pc → pc.session? = none → Accepted (t.put j pc') i parts token exchange := by
    intro t j pc pc' hcalls hj hnone
    have hne : i ≠ j := by
      rintro rfl
      rw [← hj, show s.calls i = _ from hi] at hnone
      cases hnone
    unfold Accepted
    rw [put_calls_ne _ hne, hcalls]
    exact hi
  cases hs with
  | elapse time => exact hi
  | insertToken hj =>
    unfold insertLaunchToken
    dsimp only
    split
    · exact hput rfl hj rfl
    · exact hput rfl hj rfl
  | consume hj =>
    unfold consumeLaunchToken
    dsimp only
    split
    · exact hput rfl hj rfl
    · exact hput rfl hj rfl
  | insertSession hj =>
    unfold SecurityState.insertSession
    dsimp only
    split
    · exact hput rfl hj rfl
    · exact hput rfl hj rfl
  | _ => exact hput rfl ‹s.calls _ = _› rfl

/-- Sessions stay. -/
theorem created_run {ls : List SecurityLabel} (hr : (security crates config).Reachable s)
    (hrun : (security crates config).Run s ls s') {session : SessionRecord}
    (hc : Created s session) : Created s' session := by
  have hstep : ∀ t l t', (Sound crates config t ∧ Created t session) →
      (security crates config).step t l t' → Sound crates config t' ∧ Created t' session := by
    rintro t l t' ⟨ht, i, parts, token, exchange, hi, heq⟩ hs
    refine ⟨sound_step ht (step_of_next hs), i, parts, token, exchange, ?_, heq⟩
    exact accepted_step (step_of_next hs) hi
  exact (hrun.preserves hstep ⟨security_sound.reachable s hr, hc⟩).2

theorem sessionFor_eq_ok (h : Sound crates config s) {auth : AuthContext}
    {session : SessionRecord} : sessionFor crates s.sessions auth = .ok session ↔
      Created s session ∧ session.sessionId = auth.sessionId := by
  rw [← findSession_eq_some h]
  unfold sessionFor
  cases findSession crates s.sessions auth.sessionId with
  | none => exact ⟨fun h => (by cases h), fun h => (by cases h)⟩
  | some found =>
    constructor
    · intro h
      cases h
      rfl
    · intro h
      cases h
      rfl

/-- The CSRF token is checked against the session of the cookie, also when the
table has grown in between. -/
theorem authorizeMutation_eq_ok {ls : List SecurityLabel}
    (hr : (security crates config).Reachable s) (hrun : (security crates config).Run s ls s')
    {parts : Parts} {auth : AuthContext} :
    authorizeMutation crates config s.sessions s'.sessions parts = .ok auth ↔
      Carries parts "host" config.expectedHost ∧ Carries parts "origin" config.publicOrigin ∧
      ∃ session, Created s session ∧ PresentsSession crates parts session.sessionId ∧
        Carries parts "x-csrf-token" session.csrfToken ∧ auth = ⟨session.sessionId⟩ := by
  have h := security_sound.reachable s hr
  have h' := security_sound.reachable s' (hr.run hrun)
  unfold authorizeMutation
  rw [bind_eq_ok]
  constructor
  · rintro ⟨auth', hread, hrest⟩
    obtain ⟨⟨⟩, horigin, hrest⟩ := bind_eq_ok.1 hrest
    obtain ⟨presented, hheader, hrest⟩ := bind_eq_ok.1 hrest
    obtain ⟨later, hlater, hrest⟩ := bind_eq_ok.1 hrest
    obtain ⟨hhost, session, hc, hp, rfl⟩ := (authorizeRead_eq_ok h).1 hread
    obtain ⟨hlater, hid⟩ := (sessionFor_eq_ok h').1 hlater
    obtain rfl := sessions_inj h' ((created_iff h').1 hlater)
      ((created_iff h').1 (created_run hr hrun hc)) (.inl hid)
    split at hrest
    · rename_i hmatch
      cases hrest
      obtain ⟨secret, heq⟩ := (created_text h hc).2
      rw [heq, secretMatches_encode, ← heq] at hmatch
      subst hmatch
      exact ⟨hhost, validateOrigin_eq_ok.1 horigin, later, hc, hp,
        (requiredHeader_eq_ok.1 hheader).2, rfl⟩
    · cases hrest
  · rintro ⟨hhost, horigin, session, hc, hp, hcsrf, rfl⟩
    obtain ⟨secret, heq⟩ := (created_text h hc).2
    have htext : IsText session.csrfToken := by
      rw [heq]
      exact crates.base64.visible secret.val
    refine ⟨_, (authorizeRead_eq_ok h).2 ⟨hhost, session, hc, hp, rfl⟩, ?_⟩
    refine bind_eq_ok.2 ⟨(), validateOrigin_eq_ok.2 horigin, ?_⟩
    refine bind_eq_ok.2 ⟨_, requiredHeader_eq_ok.2 ⟨htext, hcsrf⟩, ?_⟩
    refine bind_eq_ok.2 ⟨session, (sessionFor_eq_ok h').2 ⟨created_run hr hrun hc, rfl⟩, ?_⟩
    refine if_pos ?_
    rw [heq, secretMatches_encode]

/-! ## The contract -/

structure AuthorizationContract (crates : Crates) (config : Config) (s : SecurityState) : Prop where
  read : ∀ parts auth, authorizeRead crates config s.sessions parts = .ok auth ↔
    Carries parts "host" config.expectedHost ∧ ∃ session, Created s session ∧
      PresentsSession crates parts session.sessionId ∧ auth = ⟨session.sessionId⟩
  /-- `s'` is the state at the second lookup -/
  mutation : ∀ ls s', (security crates config).Run s ls s' → ∀ parts auth,
    authorizeMutation crates config s.sessions s'.sessions parts = .ok auth ↔
      Carries parts "host" config.expectedHost ∧ Carries parts "origin" config.publicOrigin ∧
      ∃ session, Created s session ∧ PresentsSession crates parts session.sessionId ∧
        Carries parts "x-csrf-token" session.csrfToken ∧ auth = ⟨session.sessionId⟩
  /-- the token of another session does not do -/
  another : ∀ parts a b, Created s a → Created s b → a ≠ b →
    PresentsSession crates parts a.sessionId → Carries parts "x-csrf-token" b.csrfToken →
    ∀ ls s', (security crates config).Run s ls s' → ∀ auth,
      authorizeMutation crates config s.sessions s'.sessions parts ≠ .ok auth
  /-- whatever the other sessions are, the decision is the same -/
  others : ∀ other, (security crates config).Reachable other → ∀ parts,
    (∀ session, PresentsSession crates parts session.sessionId →
      (Created s session ↔ Created other session)) →
    authorizeRead crates config s.sessions parts =
      authorizeRead crates config other.sessions parts ∧
    authorizeMutation crates config s.sessions s.sessions parts =
      authorizeMutation crates config other.sessions other.sessions parts

/-- Two tables that agree on the presented session find the same. -/
theorem authorizeSession_congr {other : SecurityState} {parts : Parts} (h : Sound crates config s)
    (ho : Sound crates config other)
    (hsame : ∀ session, PresentsSession crates parts session.sessionId →
      (Created s session ↔ Created other session)) :
    authorizeSession crates s.sessions parts = authorizeSession crates other.sessions parts := by
  unfold authorizeSession
  cases hheader : requiredHeader crates parts "cookie" invalidSession with
  | error e => rfl
  | ok text =>
    cases hvalue : sessionCookieValue crates text with
    | error e => simp only [bind, Except.bind, hvalue]
    | ok presented =>
      have hp : PresentsSession crates parts presented :=
        presented_eq_ok.1 (bind_eq_ok.2 ⟨text, hheader, hvalue⟩)
      have hfind : findSession crates s.sessions presented =
          findSession crates other.sessions presented := by
        refine Option.ext fun session => ?_
        rw [findSession_eq_some h, findSession_eq_some ho]
        refine and_congr_left fun heq => hsame session ?_
        rw [heq]
        exact hp
      simp only [bind, Except.bind, hvalue, hfind]

/-- **Authorization.** In every reachable state, whatever calls run beside the
request. -/
theorem authorization_sound (hr : (security crates config).Reachable s) :
    AuthorizationContract crates config s := by
  have h := security_sound.reachable s hr
  refine ⟨fun parts auth => authorizeRead_eq_ok h,
    fun ls s' hrun parts auth => authorizeMutation_eq_ok hr hrun, ?_, ?_⟩
  · intro parts a b ha hb hne hp hcsrf ls s' hrun auth hok
    obtain ⟨-, -, session, hc, hp', hcsrf', rfl⟩ := (authorizeMutation_eq_ok hr hrun).1 hok
    have hid : session = a := sessions_inj h ((created_iff h).1 hc) ((created_iff h).1 ha)
      (.inl (hp'.eq hp))
    obtain ⟨secret, heq⟩ := (created_text h hc).2
    obtain ⟨secret', heq'⟩ := (created_text h hb).2
    have htext : requiredHeader crates parts "x-csrf-token" invalidCsrf = .ok session.csrfToken :=
      requiredHeader_eq_ok.2 ⟨heq ▸ crates.base64.visible secret.val, hcsrf'⟩
    have htext' : requiredHeader crates parts "x-csrf-token" invalidCsrf = .ok b.csrfToken :=
      requiredHeader_eq_ok.2 ⟨heq' ▸ crates.base64.visible secret'.val, hcsrf⟩
    have hcsrf : session.csrfToken = b.csrfToken := Except.ok.inj (htext.symm.trans htext')
    exact hne (hid.symm.trans
      (sessions_inj h ((created_iff h).1 hc) ((created_iff h).1 hb) (.inr hcsrf)))
  · intro other hother parts hsame
    have ho := security_sound.reachable other hother
    have hread : authorizeRead crates config s.sessions parts =
        authorizeRead crates config other.sessions parts := by
      unfold authorizeRead
      rw [authorizeSession_congr h ho hsame]
    refine ⟨hread, ?_⟩
    unfold authorizeMutation
    cases hauth : authorizeRead crates config s.sessions parts with
    | error e =>
      rw [← hread, hauth]
      rfl
    | ok auth =>
      rw [← hread, hauth]
      obtain ⟨-, session, hc, hp, rfl⟩ := (authorizeRead_eq_ok h).1 hauth
      have hfor : sessionFor crates s.sessions ⟨session.sessionId⟩ =
          sessionFor crates other.sessions ⟨session.sessionId⟩ := by
        rw [(sessionFor_eq_ok h).2 ⟨hc, rfl⟩, (sessionFor_eq_ok ho).2 ⟨(hsame session hp).1 hc, rfl⟩]
      simp only [bind, Except.bind, hfor]

/-- A request of the session of a run. -/
def sampleRequest (session : SessionRecord) : Parts where
  headers := sampleParts.headers ++
    [("cookie", bytesOf ("theme=dark; coding_agent_session=" ++ session.sessionId)),
     ("x-csrf-token", bytesOf session.csrfToken)]

theorem authorization_sound_sample : ∃ s session, AuthorizationContract sampleCrates sampleConfig s ∧
    (s.calls 1).session? = some session ∧
    authorizeMutation sampleCrates sampleConfig s.sessions s.sessions (sampleRequest session) =
      .ok ⟨session.sessionId⟩ := by
  let session : SessionRecord := ⟨sampleCrates.base64.encode (sampleSecret 3).val,
    sampleCrates.base64.encode (sampleSecret 4).val⟩
  have hrun : (LTS.exec (SecurityState.next sampleCrates sampleConfig)
      (fromSeed sampleCrates (sampleSecret 1) (sampleSecret 2) 0) sampleExchanges).map (fun s =>
        ((s.calls 1).session?, authorizeMutation sampleCrates sampleConfig s.sessions s.sessions
          (sampleRequest session))) = some (some session, .ok ⟨session.sessionId⟩) := by
    decide +kernel
  obtain ⟨s, hs, heq⟩ := Option.map_eq_some_iff.1 hrun
  obtain ⟨hsession, hok⟩ := Prod.mk.inj heq
  have hr : (security sampleCrates sampleConfig).Reachable s :=
    LTS.reachable_of_exec ⟨_, _, 0, by decide, rfl⟩ hs
  exact ⟨s, session, authorization_sound hr, hsession, hok⟩

end CodingAgent.L4.App.Security
