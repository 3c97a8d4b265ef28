import CodingAgent.L4App.Security
import Mathlib.Data.List.Nodup

/-!
# One-time launch tokens

* `Step`: what one step of the manager is, by the call that takes it.
* `Secrets`: a text drawn for one place is found in no other.
* `Tokens`: what a token in the table, an exchange past the table and an
  accepted exchange know of each other.
* `Sessions`: the table of sessions is that of the accepted exchanges.
* `launchTokens_oneTime`: the contract, for every interleaving of the calls.
-/
namespace CodingAgent.L4.App.Security
open CodingAgent.Base64 SecurityState

variable {crates : Crates} {config : Config} {s s' : SecurityState}

/-! ## Steps -/

/-- A step, by what the call was doing. -/
inductive Step (crates : Crates) (config : Config) (s : SecurityState) : SecurityState → Prop
  | elapse (time : Nat) : Step crates config s { s with clock := s.clock + time }
  | issue {i : Nat} (h : s.calls i = .idle) : Step crates config s (s.put i .issuing)
  | ask {i : Nat} (token : String) (h : s.calls i = .idle) :
    Step crates config s (s.put i (.expiresAsked token))
  | exchange {i : Nat} (parts : Parts) (token : String) (h : s.calls i = .idle)
    (hvalid : validate crates config parts = .ok ()) :
    Step crates config s (s.put i (.exchanging parts token .validated))
  | refuse {i : Nat} (parts : Parts) (token : String) (error : ApiError) (h : s.calls i = .idle)
    (hvalid : validate crates config parts = .error error) :
    Step crates config s (s.put i (.exchanged parts token (.error error)))
  | drawToken {i : Nat} (secret : Secret) (hfresh : secret ∉ s.drawn) (h : s.calls i = .issuing) :
    Step crates config s ({ s with drawn := secret :: s.drawn }.put i
      (.issueDrawn (crates.base64.encode secret.val)))
  | drawSession {i : Nat} {parts : Parts} {token : String} {now : Nat} (secret : Secret)
    (hfresh : secret ∉ s.drawn) (h : s.calls i = .exchanging parts token (.consumed now)) :
    Step crates config s ({ s with drawn := secret :: s.drawn }.put i
      (.exchanging parts token (.sessionDrawn now (crates.base64.encode secret.val))))
  | drawCsrf {i : Nat} {parts : Parts} {token sessionId : String} {now : Nat} (secret : Secret)
    (hfresh : secret ∉ s.drawn)
    (h : s.calls i = .exchanging parts token (.sessionDrawn now sessionId)) :
    Step crates config s ({ s with drawn := secret :: s.drawn }.put i
      (.exchanging parts token (.drawn now ⟨sessionId, crates.base64.encode secret.val⟩)))
  | issueFails {i : Nat} (h : s.calls i = .issuing) : Step crates config s (s.put i (.issued none))
  | exchangeFails {i : Nat} {parts : Parts} {token : String} {stage : ExchangeStage}
    (h : s.calls i = .exchanging parts token stage) :
    Step crates config s (s.put i (.exchanged parts token (.error randomSourceError)))
  | stampToken {i : Nat} {token : String} (h : s.calls i = .issueDrawn token) :
    Step crates config s
      (s.put i (.issueStamped ⟨token, s.clock, s.clock + launchTokenLifetime⟩))
  | insertToken {i : Nat} {record : LaunchTokenRecord} (h : s.calls i = .issueStamped record) :
    Step crates config s (s.insertLaunchToken i record)
  | stampExpires {i : Nat} {token : String} (h : s.calls i = .expiresAsked token) :
    Step crates config s (s.put i (.expiresStamped token s.clock))
  | expires {i : Nat} {token : String} {now : Nat} (h : s.calls i = .expiresStamped token now) :
    Step crates config s (s.expiresAt crates i token now)
  | stampExchange {i : Nat} {parts : Parts} {token : String}
    (h : s.calls i = .exchanging parts token .validated) :
    Step crates config s (s.put i (.exchanging parts token (.stamped s.clock)))
  | consume {i : Nat} {parts : Parts} {token : String} {now : Nat}
    (h : s.calls i = .exchanging parts token (.stamped now)) :
    Step crates config s (s.consumeLaunchToken crates i parts token now)
  | insertSession {i : Nat} {parts : Parts} {token : String} {now : Nat} {session : SessionRecord}
    (h : s.calls i = .exchanging parts token (.drawn now session)) :
    Step crates config s (s.insertSession crates i parts token now session)

theorem step_of_draw {i : Nat} {secret : Option Secret} (hs : s.draw crates i secret = some s') :
    Step crates config s s' := by
  cases secret with
  | some secret =>
    simp only [draw] at hs
    split at hs
    · cases hs
    · rename_i hfresh
      split at hs
      · rename_i h
        cases hs
        exact .drawToken secret hfresh h
      · rename_i h
        cases hs
        exact .drawSession secret hfresh h
      · rename_i h
        cases hs
        exact .drawCsrf secret hfresh h
      · cases hs
  | none =>
    simp only [draw] at hs
    split at hs
    · rename_i h
      cases hs
      exact .issueFails h
    · rename_i h
      cases hs
      exact .exchangeFails h
    · rename_i h
      cases hs
      exact .exchangeFails h
    · cases hs

theorem step_of_advance {i : Nat} (hs : s.advance crates i = some s') :
    Step crates config s s' := by
  unfold advance at hs
  split at hs
  · rename_i h
    cases hs
    exact .stampToken h
  · rename_i h
    cases hs
    exact .insertToken h
  · rename_i h
    cases hs
    exact .stampExpires h
  · rename_i h
    cases hs
    exact .expires h
  · rename_i h
    cases hs
    exact .stampExchange h
  · rename_i h
    cases hs
    exact .consume h
  · rename_i h
    cases hs
    exact .insertSession h
  · cases hs

theorem step_of_next {l : SecurityLabel} (hs : s.next crates config l = some s') :
    Step crates config s s' := by
  cases l with
  | elapse time => cases hs; exact .elapse time
  | issueLaunchToken i =>
    simp only [next] at hs
    split at hs
    · rename_i h
      cases hs
      exact .issue h
    · cases hs
  | launchTokenExpiresAt i token =>
    simp only [next] at hs
    split at hs
    · rename_i h
      cases hs
      exact .ask token h
    · cases hs
  | exchange i parts token =>
    simp only [next] at hs
    split at hs
    · rename_i h
      split at hs
      · rename_i hvalid
        cases hs
        exact .exchange parts token h hvalid
      · rename_i error hvalid
        cases hs
        exact .refuse parts token error h hvalid
    · cases hs
  | draw i secret => exact step_of_draw hs
  | advance i => exact step_of_advance hs

/-! ## What a call has -/

namespace CallPc

/-- The secrets that are known to this call only. -/
def held : CallPc → List String
  | .issueDrawn token => [token]
  | .issueStamped record => [record.token]
  | .exchanging _ _ (.sessionDrawn _ sessionId) => [sessionId]
  | .exchanging _ _ (.drawn _ session) => [session.sessionId, session.csrfToken]
  | _ => []

/-- The token an exchange took out of the table, and when. -/
def spent? : CallPc → Option (String × Nat)
  | .exchanging _ token (.consumed now) | .exchanging _ token (.sessionDrawn now _)
  | .exchanging _ token (.drawn now _) => some (token, now)
  | .exchanged _ token (.ok exchange) => some (token, exchange.now)
  | _ => none

/-- The request of an exchange that is under way or was accepted. -/
def parts? : CallPc → Option Parts
  | .exchanging parts _ _ => some parts
  | .exchanged parts _ (.ok _) => some parts
  | _ => none

/-- The session of an accepted exchange. -/
def session? : CallPc → Option SessionRecord
  | .exchanged _ _ (.ok exchange) => some exchange.session
  | _ => none

/-- The reading of the clock a call works with. -/
def reading? : CallPc → Option Nat
  | .expiresStamped _ now => some now
  | .exchanging _ _ (.stamped now) => some now
  | pc => pc.spent?.map (·.2)

/-- The record an issue put in the table. -/
def record? : CallPc → Option LaunchTokenRecord
  | .issued record => record
  | _ => none

end CallPc

@[simp] theorem put_calls_self (i : Nat) (pc : CallPc) : (s.put i pc).calls i = pc := if_pos rfl

theorem put_calls_ne {i j : Nat} (pc : CallPc) (h : j ≠ i) : (s.put i pc).calls j = s.calls j :=
  if_neg h

/-- A fact of every call, after one has moved. -/
theorem forall_put {P : Nat → CallPc → Prop} {i : Nat} {pc : CallPc}
    (h : ∀ j, j ≠ i → P j (s.calls j)) (hi : P i pc) (j : Nat) : P j ((s.put i pc).calls j) := by
  by_cases hj : j = i
  · subst hj
    rw [put_calls_self]
    exact hi
  · rw [put_calls_ne pc hj]
    exact h j hj

/-! ## Secrets -/

/-- The secrets that are, or were, in a table. -/
def SecurityState.placed (s : SecurityState) : List String :=
  s.everIssued.map (·.token) ++ s.sessions.flatMap fun e => [e.2.sessionId, e.2.csrfToken]

structure Secrets (crates : Crates) (drawn : List Secret) (placed : List String)
    (calls : Nat → CallPc) : Prop where
  nodup : ∀ i, ((calls i).held ++ placed).Nodup
  apart : ∀ i j, i ≠ j → ∀ text ∈ (calls i).held, text ∉ (calls j).held
  texts : ∀ i, ∀ text ∈ (calls i).held ++ placed,
    ∃ secret ∈ drawn, text = crates.base64.encode secret.val

/-- A call moves secrets it holds to a table, or forgets them. -/
theorem Secrets.move {placed placed' : List String} {i : Nat} {pc : CallPc}
    (h : Secrets crates s.drawn placed s.calls) (hnodup : (pc.held ++ placed').Nodup)
    (hsub : ∀ text ∈ pc.held ++ placed', text ∈ (s.calls i).held ++ placed) :
    Secrets crates s.drawn placed' (s.put i pc).calls := by
  have hother : ∀ j, j ≠ i → ∀ text ∈ (s.calls j).held, text ∉ pc.held ++ placed' := by
    intro j hj text htext hmem
    rcases List.mem_append.1 (hsub text hmem) with hheld | hplaced
    · exact h.apart j i hj text htext hheld
    · exact (List.nodup_append.1 (h.nodup j)).2.2 text htext text hplaced rfl
  refine ⟨fun j => ?_, fun j k hjk => ?_, fun j => ?_⟩
  · refine forall_put (P := fun _ pc' => (pc'.held ++ placed').Nodup) (fun j hj => ?_) hnodup j
    refine List.nodup_append.2 ⟨(List.nodup_append.1 (h.nodup j)).1,
      (List.nodup_append.1 hnodup).2.1, fun a ha b hb hab => ?_⟩
    exact hother j hj a ha (List.mem_append_right _ (hab ▸ hb))
  · by_cases hj : j = i
    · subst hj
      rw [put_calls_self, put_calls_ne pc hjk.symm]
      exact fun text htext hmem => hother k hjk.symm text hmem (List.mem_append_left _ htext)
    · rw [put_calls_ne pc hj]
      by_cases hk : k = i
      · subst hk
        rw [put_calls_self]
        exact fun text htext hmem => hother j hj text htext (List.mem_append_left _ hmem)
      · rw [put_calls_ne pc hk]
        exact h.apart j k hjk
  · refine forall_put (P := fun _ pc' => ∀ text ∈ pc'.held ++ placed', ∃ secret ∈ s.drawn,
      text = crates.base64.encode secret.val) (fun j _ text htext => ?_)
      (fun text htext => h.texts i text (hsub text htext)) j
    rcases List.mem_append.1 htext with hheld | hplaced
    · exact h.texts j text (List.mem_append_left _ hheld)
    · exact h.texts i text (hsub text (List.mem_append_right _ hplaced))

/-- A call draws a secret that was not drawn before. -/
theorem Secrets.draw {placed : List String} {i : Nat} {pc : CallPc} {secret : Secret}
    (h : Secrets crates s.drawn placed s.calls) (hfresh : secret ∉ s.drawn)
    (hheld : pc.held = (s.calls i).held ++ [crates.base64.encode secret.val]) :
    Secrets crates (secret :: s.drawn) placed (s.put i pc).calls := by
  have hnew : ∀ j, crates.base64.encode secret.val ∉ (s.calls j).held ++ placed := by
    intro j hmem
    obtain ⟨other, hother, heq⟩ := h.texts j _ hmem
    rw [Subtype.ext (crates.base64.encode_inj.1 heq)] at hfresh
    exact hfresh hother
  have hnotHeld := fun j => fun hmem => hnew j (List.mem_append_left _ hmem)
  refine ⟨fun j => ?_, fun j k hjk => ?_, fun j => ?_⟩
  · refine forall_put (P := fun _ pc' => (pc'.held ++ placed).Nodup) (fun j _ => h.nodup j) ?_ j
    rw [hheld, List.append_assoc, List.singleton_append, List.nodup_middle]
    exact List.nodup_cons.2 ⟨hnew i, h.nodup i⟩
  · by_cases hj : j = i
    · subst hj
      rw [put_calls_self, put_calls_ne pc hjk.symm, hheld]
      intro text htext
      rcases List.mem_append.1 htext with htext | htext
      · exact h.apart j k hjk text htext
      · rw [List.mem_singleton.1 htext]
        exact hnotHeld k
    · rw [put_calls_ne pc hj]
      by_cases hk : k = i
      · subst hk
        rw [put_calls_self, hheld]
        intro text htext hmem
        rcases List.mem_append.1 hmem with hmem | hmem
        · exact h.apart j k hj text htext hmem
        · rw [List.mem_singleton.1 hmem] at htext
          exact hnotHeld j htext
      · rw [put_calls_ne pc hk]
        exact h.apart j k hjk
  · refine forall_put (P := fun _ pc' => ∀ text ∈ pc'.held ++ placed,
      ∃ other ∈ secret :: s.drawn, text = crates.base64.encode other.val) (fun j _ text htext => ?_)
      (fun text htext => ?_) j
    · obtain ⟨other, hother, heq⟩ := h.texts j text htext
      exact ⟨other, List.mem_cons_of_mem _ hother, heq⟩
    · rw [hheld, List.append_assoc] at htext
      rcases List.mem_append.1 htext with htext | htext
      · obtain ⟨other, hother, heq⟩ := h.texts i text (List.mem_append_left _ htext)
        exact ⟨other, List.mem_cons_of_mem _ hother, heq⟩
      · rcases List.mem_cons.1 htext with rfl | htext
        · exact ⟨secret, List.mem_cons_self, rfl⟩
        · obtain ⟨other, hother, heq⟩ := h.texts i text (List.mem_append_right _ htext)
          exact ⟨other, List.mem_cons_of_mem _ hother, heq⟩

/-! ## Tokens -/

/-- The token was issued, was alive, is out of the table, and no other call
has spent it. -/
structure Spent (everIssued : List LaunchTokenRecord) (launchTokens : List (Nat × LaunchTokenRecord))
    (calls : Nat → CallPc) (i : Nat) (token : String) (now : Nat) : Prop where
  issued : ∃ record ∈ everIssued, record.token = token ∧ now < record.expiresAt
  gone : ∀ e ∈ launchTokens, e.2.token ≠ token
  once : ∀ j now', (calls j).spent? = some (token, now') → j = i

/-- The table of tokens, against the exchanges that took one out of it. -/
structure Tokens (crates : Crates) (config : Config) (s : SecurityState) : Prop where
  issued : ∀ e ∈ s.launchTokens, e.2 ∈ s.everIssued
  keys : (s.launchTokens.map (·.1)).Nodup
  tokens : (s.launchTokens.map (·.2.token)).Nodup
  lifetime : ∀ record ∈ s.everIssued, record.expiresAt = record.issuedAt + launchTokenLifetime
  stamped : ∀ i record, s.calls i = .issueStamped record →
    record.expiresAt = record.issuedAt + launchTokenLifetime
  records : ∀ i record, (s.calls i).record? = some record → record ∈ s.everIssued
  spent : ∀ i token now, (s.calls i).spent? = some (token, now) →
    Spent s.everIssued s.launchTokens s.calls i token now
  valid : ∀ i parts, (s.calls i).parts? = some parts → validate crates config parts = .ok ()
  reading : ∀ i now, (s.calls i).reading? = some now → now ≤ s.clock

/-- Tokens leave the table. -/
theorem Tokens.retain {records : List (Nat × LaunchTokenRecord)} (h : Tokens crates config s)
    (hsub : records.Sublist s.launchTokens) :
    Tokens crates config { s with launchTokens := records } where
  issued e he := h.issued e (hsub.subset he)
  keys := h.keys.sublist (hsub.map _)
  tokens := h.tokens.sublist (hsub.map _)
  lifetime := h.lifetime
  stamped := h.stamped
  records := h.records
  spent i token now hi :=
    ⟨(h.spent i token now hi).issued, fun e he => (h.spent i token now hi).gone e (hsub.subset he),
      (h.spent i token now hi).once⟩
  valid := h.valid
  reading := h.reading

/-- A call moves. -/
theorem Tokens.put {i : Nat} {pc : CallPc} (h : Tokens crates config s)
    (hstamped : ∀ record, pc = .issueStamped record →
      record.expiresAt = record.issuedAt + launchTokenLifetime)
    (hrecord : ∀ record, pc.record? = some record → record ∈ s.everIssued)
    (hspent : ∀ token now, pc.spent? = some (token, now) →
      Spent s.everIssued s.launchTokens s.calls i token now)
    (hvalid : ∀ parts, pc.parts? = some parts → validate crates config parts = .ok ())
    (hreading : ∀ now, pc.reading? = some now → now ≤ s.clock) :
    Tokens crates config (s.put i pc) where
  issued := h.issued
  keys := h.keys
  tokens := h.tokens
  lifetime := h.lifetime
  stamped := forall_put (P := fun _ pc' => ∀ record, pc' = .issueStamped record →
    record.expiresAt = record.issuedAt + launchTokenLifetime) (fun j _ => h.stamped j) hstamped
  records := forall_put (P := fun _ pc' => ∀ record, pc'.record? = some record →
    record ∈ s.everIssued) (fun j _ => h.records j) hrecord
  spent := by
    have hsame : ∀ j token now, ((s.put i pc).calls j).spent? = some (token, now) →
        Spent s.everIssued s.launchTokens s.calls j token now :=
      forall_put (P := fun j pc' => ∀ token now, pc'.spent? = some (token, now) →
        Spent s.everIssued s.launchTokens s.calls j token now) (fun j _ => h.spent j) hspent
    intro j token now hj
    refine ⟨(hsame j token now hj).issued, (hsame j token now hj).gone, fun k now' hk => ?_⟩
    by_cases hji : j = i
    · subst hji
      by_cases hkj : k = j
      · exact hkj
      · rw [put_calls_ne pc hkj] at hk
        exact (hsame j token now hj).once k now' hk
    · rw [put_calls_ne pc hji] at hj
      exact ((hsame k token now' hk).once j now hj).symm
  valid := forall_put (P := fun _ pc' => ∀ parts, pc'.parts? = some parts →
    validate crates config parts = .ok ()) (fun j _ => h.valid j) hvalid
  reading := forall_put (P := fun _ pc' => ∀ now, pc'.reading? = some now → now ≤ s.clock)
    (fun j _ => h.reading j) hreading

/-- A call that has nothing of the table. -/
structure CallPc.Plain (pc : CallPc) : Prop where
  stamped : ∀ record, pc ≠ .issueStamped record
  record : pc.record? = none
  spent : pc.spent? = none
  parts : pc.parts? = none
  reading : pc.reading? = none

theorem Tokens.plain {i : Nat} {pc : CallPc} (h : Tokens crates config s) (hpc : pc.Plain) :
    Tokens crates config (s.put i pc) :=
  h.put (fun record hi => absurd hi (hpc.stamped record)) (by simp [hpc.record])
    (by simp [hpc.spent]) (by simp [hpc.parts]) (by simp [hpc.reading])

theorem prune_sublist (now : Nat) (records : List (Nat × LaunchTokenRecord)) :
    (prune now records).Sublist records := List.filter_sublist

theorem mem_prune {now : Nat} {records : List (Nat × LaunchTokenRecord)}
    {e : Nat × LaunchTokenRecord} : e ∈ prune now records ↔ e ∈ records ∧ now < e.2.expiresAt := by
  simp [prune]

/-- The loops over a table keep the last entry that matches. -/
theorem foldl_last_some {α β : Type} {p : α → Bool} {f : α → β} {l : List α} {b : β}
    {init : Option β} (h : l.foldl (fun m a => if p a then some (f a) else m) init = some b) :
    init = some b ∨ ∃ a ∈ l, p a = true ∧ f a = b := by
  induction l generalizing init with
  | nil => exact .inl h
  | cons a l ih =>
    simp only [List.foldl_cons] at h
    rcases ih h with hinit | ⟨a', ha', hp⟩
    · by_cases hpa : p a = true
      · rw [if_pos hpa] at hinit
        exact .inr ⟨a, List.mem_cons_self, hpa, Option.some.inj hinit⟩
      · rw [if_neg hpa] at hinit
        exact .inl hinit
    · exact .inr ⟨a', List.mem_cons_of_mem _ ha', hp⟩

theorem foldl_last_none {α β : Type} {p : α → Bool} {f : α → β} {l : List α} {init : Option β}
    (h : l.foldl (fun m a => if p a then some (f a) else m) init = none) :
    init = none ∧ ∀ a ∈ l, ¬ p a = true := by
  induction l generalizing init with
  | nil => exact ⟨h, List.forall_mem_nil _⟩
  | cons a l ih =>
    simp only [List.foldl_cons] at h
    obtain ⟨hinit, hrest⟩ := ih h
    by_cases hpa : p a = true
    · rw [if_pos hpa] at hinit
      cases hinit
    · rw [if_neg hpa] at hinit
      exact ⟨hinit, List.forall_mem_cons.2 ⟨hpa, hrest⟩⟩

/-- Every token in the table is the text of a secret. -/
theorem Tokens.text {e : Nat × LaunchTokenRecord} (h : Tokens crates config s)
    (hs : Secrets crates s.drawn s.placed s.calls) (he : e ∈ s.launchTokens) :
    ∃ secret : Secret, e.2.token = crates.base64.encode secret.val := by
  have hplaced : e.2.token ∈ s.placed :=
    List.mem_append_left _ (List.mem_map_of_mem (h.issued e he))
  obtain ⟨secret, -, heq⟩ := hs.texts 0 _ (List.mem_append_right _ hplaced)
  exact ⟨secret, heq⟩

theorem Tokens.matches {e : Nat × LaunchTokenRecord} (h : Tokens crates config s)
    (hs : Secrets crates s.drawn s.placed s.calls) (he : e ∈ s.launchTokens) (presented : String) :
    secretMatches crates e.2.token presented = true ↔ e.2.token = presented := by
  obtain ⟨secret, heq⟩ := h.text hs he
  rw [heq, secretMatches_encode, eq_comm]

/-- What `consume_launch_token` finds: a live entry with the presented token,
which is the only one of its number. -/
theorem Tokens.matched (h : Tokens crates config s)
    (hs : Secrets crates s.drawn s.placed s.calls) (now : Nat) (presented : String) :
    (matchedId crates (prune now s.launchTokens) presented = none ∧
      ∀ e ∈ s.launchTokens, now < e.2.expiresAt → e.2.token ≠ presented) ∨
    ∃ e ∈ s.launchTokens, now < e.2.expiresAt ∧ e.2.token = presented ∧
      matchedId crates (prune now s.launchTokens) presented = some e.1 := by
  cases hid : matchedId crates (prune now s.launchTokens) presented with
  | none =>
    refine .inl ⟨rfl, fun e he hlive heq => ?_⟩
    exact (foldl_last_none hid).2 e (mem_prune.2 ⟨he, hlive⟩) ((h.matches hs he _).2 heq)
  | some id =>
    rcases foldl_last_some hid with hnone | ⟨e, he, hmatch, rfl⟩
    · cases hnone
    · obtain ⟨he, hlive⟩ := mem_prune.1 he
      exact .inr ⟨e, he, hlive, (h.matches hs he _).1 hmatch, rfl⟩

/-- An exchange takes its token out of the table. -/
theorem Tokens.consume {i : Nat} {parts : Parts} {token : String} {now : Nat}
    (h : Tokens crates config s) (hs : Secrets crates s.drawn s.placed s.calls)
    (hi : s.calls i = .exchanging parts token (.stamped now)) :
    Tokens crates config (s.consumeLaunchToken crates i parts token now) := by
  unfold consumeLaunchToken
  rcases h.matched hs now token with ⟨hnone, -⟩ | ⟨e, he, hlive, rfl, hid⟩
  · simp only [hnone]
    exact (h.retain (prune_sublist now s.launchTokens)).plain ⟨nofun, rfl, rfl, rfl, rfl⟩
  · simp only [hid]
    have hsub : ((prune now s.launchTokens).filter fun entry => entry.1 ≠ e.1).Sublist
        s.launchTokens := List.filter_sublist.trans (prune_sublist now s.launchTokens)
    refine (h.retain hsub).put (fun _ hpc => by cases hpc) (fun _ hpc => by cases hpc)
      (fun token now' hpc => ?_) (fun parts' hpc => ?_) (fun now' hpc => ?_)
    · cases hpc
      refine ⟨⟨e.2, h.issued e he, rfl, hlive⟩, fun entry hentry heq => ?_, fun j now' hj => ?_⟩
      · obtain ⟨hentry, hid'⟩ := List.mem_filter.1 hentry
        have hsame := List.inj_on_of_nodup_map h.tokens (mem_prune.1 hentry).1 he heq
        rw [hsame] at hid'
        exact absurd rfl (of_decide_eq_true hid')
      · -- nobody can have spent it before: it was still in the table
        exact absurd rfl ((h.spent j _ _ hj).gone e he)
    · cases hpc
      exact h.valid i parts (by rw [hi]; rfl)
    · cases hpc
      exact h.reading i now (by rw [hi]; rfl)

/-- A token is issued: its text was known to the call only. -/
theorem Tokens.issue {i : Nat} {record : LaunchTokenRecord} (h : Tokens crates config s)
    (hs : Secrets crates s.drawn s.placed s.calls) (hi : s.calls i = .issueStamped record) :
    Tokens crates config (s.insertLaunchToken i record) := by
  have hnew : ∀ other ∈ s.everIssued, other.token ≠ record.token := by
    intro other hother heq
    have hheld : record.token ∈ (s.calls i).held := by rw [hi]; exact List.mem_cons_self
    have hplaced : other.token ∈ s.placed :=
      List.mem_append_left _ (List.mem_map_of_mem hother)
    exact (List.nodup_append.1 (hs.nodup i)).2.2 _ hheld _ hplaced heq.symm
  unfold insertLaunchToken
  dsimp only
  split
  · exact Tokens.plain ⟨h.issued, h.keys, h.tokens, h.lifetime, h.stamped, h.records, h.spent,
      h.valid, h.reading⟩ ⟨nofun, rfl, rfl, rfl, rfl⟩
  · have hmem : ∀ e ∈ insert s.launchTokens s.nextLaunchTokenId record,
        e ∈ s.launchTokens ∨ e = (s.nextLaunchTokenId, record) := by
      intro e he
      rcases List.mem_append.1 he with he | he
      · exact .inl (List.mem_filter.1 he).1
      · exact .inr (List.mem_singleton.1 he)
    refine Tokens.put ⟨?_, ?_, ?_, ?_, h.stamped, ?_, ?_, h.valid, h.reading⟩
      (fun _ hpc => by cases hpc) (fun record' hpc => ?_) (fun _ _ hpc => by cases hpc)
      (fun _ hpc => by cases hpc) (fun _ hpc => by cases hpc)
    · intro e he
      rcases hmem e he with he | rfl
      · exact List.mem_append_left _ (h.issued e he)
      · exact List.mem_append_right _ List.mem_cons_self
    · show ((insert s.launchTokens s.nextLaunchTokenId record).map (·.1)).Nodup
      unfold insert
      rw [List.map_append, List.nodup_append]
      refine ⟨h.keys.sublist (List.filter_sublist.map _), List.nodup_singleton _, ?_⟩
      intro id hid other hother heq
      obtain ⟨e, he, rfl⟩ := List.mem_map.1 hid
      obtain rfl := List.mem_singleton.1 hother
      exact of_decide_eq_true (List.mem_filter.1 he).2 heq
    · show ((insert s.launchTokens s.nextLaunchTokenId record).map (·.2.token)).Nodup
      unfold insert
      rw [List.map_append, List.nodup_append]
      refine ⟨h.tokens.sublist (List.filter_sublist.map _), List.nodup_singleton _, ?_⟩
      intro text htext other hother heq
      obtain ⟨e, he, rfl⟩ := List.mem_map.1 htext
      obtain rfl := List.mem_singleton.1 hother
      exact hnew e.2 (h.issued e (List.mem_filter.1 he).1) heq
    · intro other hother
      rcases List.mem_append.1 hother with hother | hother
      · exact h.lifetime other hother
      · rw [List.mem_singleton.1 hother]
        exact h.stamped i record hi
    · intro j other hj
      exact List.mem_append_left _ (h.records j other hj)
    · intro j token now hj
      obtain ⟨⟨other, hother, heq, hlive⟩, hgone, honce⟩ := h.spent j token now hj
      refine ⟨⟨other, List.mem_append_left _ hother, heq, hlive⟩, fun e he => ?_, honce⟩
      rcases hmem e he with he | rfl
      · exact hgone e he
      · exact fun h => hnew other hother (heq.trans h.symm)
    · cases hpc
      exact List.mem_append_right _ List.mem_cons_self

/-! ## Sessions -/

/-- The table of sessions is that of the accepted exchanges. -/
structure Sessions (s : SecurityState) : Prop where
  numbered : s.sessions.map (·.1) = List.range s.sessions.length
  next : s.sessions.length < maxEntries → s.nextSessionId = s.sessions.length
  created : ∀ session, (∃ e ∈ s.sessions, e.2 = session) ↔
    ∃ i, (s.calls i).session? = some session
  once : ∀ i j session, (s.calls i).session? = some session →
    (s.calls j).session? = some session → i = j

/-- A call without a session moves, and still has none. -/
theorem Sessions.put {i : Nat} {pc : CallPc} (h : Sessions s) (hold : (s.calls i).session? = none)
    (hnew : pc.session? = none) : Sessions (s.put i pc) := by
  have hsame : ∀ j, ((s.put i pc).calls j).session? = (s.calls j).session? :=
    forall_put (P := fun j pc' => pc'.session? = (s.calls j).session?) (fun _ _ => rfl)
      (hnew.trans hold.symm)
  refine ⟨h.numbered, h.next, fun session => ?_, fun j k session hj hk => ?_⟩
  · rw [show (s.put i pc).sessions = s.sessions from rfl, h.created]
    simp only [hsame]
  · rw [hsame] at hj hk
    exact h.once j k session hj hk

theorem insert_new {α : Type} {table : List (Nat × α)} {id : Nat} {a : α}
    (h : ∀ e ∈ table, e.1 ≠ id) : insert table id a = table ++ [(id, a)] := by
  unfold insert
  rw [List.filter_eq_self.2 fun e he => decide_eq_true (h e he)]

/-- A session is inserted under a number of its own: the table is full long
before the numbers run out. -/
theorem Sessions.append {i : Nat} {parts : Parts} {token : String} {now : Nat}
    {session : SessionRecord} (h : Sessions s) (hs : Secrets crates s.drawn s.placed s.calls)
    (hi : s.calls i = .exchanging parts token (.drawn now session))
    (hroom : s.sessions.length < maxEntries) :
    ∃ setCookie, s.insertSession crates i parts token now session =
      { s with
        nextSessionId := s.sessions.length + 1
        sessions := s.sessions ++ [(s.sessions.length, session)] }.put i
        (.exchanged parts token (.ok { setCookie, now, session })) := by
  have hheld : session.sessionId ∈ (s.calls i).held ++ s.placed := by
    rw [hi]
    exact List.mem_cons_self
  obtain ⟨secret, -, heq⟩ := hs.texts i _ hheld
  have htext : IsText session.sessionId := by
    rw [heq]
    exact crates.base64.visible secret.val
  obtain ⟨setCookie, hcookie⟩ := Option.isSome_iff_exists.1 <|
    crates.setCookie_isSome ⟨sessionCookieName, session.sessionId⟩
      (show IsText sessionCookieName by decide) htext
  have hnew : ∀ e ∈ s.sessions, e.1 ≠ s.sessions.length := by
    intro e he
    have hmem : e.1 ∈ s.sessions.map (·.1) := List.mem_map_of_mem he
    rw [h.numbered] at hmem
    exact Nat.ne_of_lt (List.mem_range.1 hmem)
  have hmod : (s.sessions.length + 1) % 2 ^ 64 = s.sessions.length + 1 := by
    refine Nat.mod_eq_of_lt ?_
    unfold maxEntries at hroom
    omega
  refine ⟨setCookie, ?_⟩
  unfold insertSession
  dsimp only
  rw [if_neg (Nat.not_le.2 hroom), hcookie, h.next hroom, insert_new hnew, hmod]

theorem Sessions.insert {i : Nat} {parts : Parts} {token : String} {now : Nat}
    {session : SessionRecord} (h : Sessions s) (hs : Secrets crates s.drawn s.placed s.calls)
    (hi : s.calls i = .exchanging parts token (.drawn now session)) :
    Sessions (s.insertSession crates i parts token now session) := by
  have hold : (s.calls i).session? = none := by rw [hi]; rfl
  by_cases hroom : s.sessions.length < maxEntries
  · obtain ⟨setCookie, heq⟩ := h.append hs hi hroom
    rw [heq]
    have hother : ∀ j, j ≠ i → (s.calls j).session? ≠ some session := by
      intro j _ hj
      obtain ⟨e, he, hsession⟩ := (h.created session).2 ⟨j, hj⟩
      have hplaced : session.sessionId ∈ s.placed := by
        refine List.mem_append_right _ (List.mem_flatMap.2 ⟨e, he, ?_⟩)
        rw [hsession]
        exact List.mem_cons_self
      have hheld : session.sessionId ∈ (s.calls i).held := by rw [hi]; exact List.mem_cons_self
      exact (List.nodup_append.1 (hs.nodup i)).2.2 _ hheld _ hplaced rfl
    refine ⟨?_, fun _ => ?_, fun session' => ⟨?_, ?_⟩, fun j k session' hj hk => ?_⟩
    · show (s.sessions ++ [(s.sessions.length, session)]).map (·.1) =
        List.range (s.sessions ++ [(s.sessions.length, session)]).length
      rw [List.map_append, h.numbered, List.length_append, List.length_singleton, List.range_succ]
      rfl
    · show s.sessions.length + 1 = (s.sessions ++ [(s.sessions.length, session)]).length
      rw [List.length_append, List.length_singleton]
    · rintro ⟨e, he, rfl⟩
      rcases List.mem_append.1 he with he | he
      · obtain ⟨j, hj⟩ := (h.created e.2).1 ⟨e, he, rfl⟩
        refine ⟨j, ?_⟩
        rw [put_calls_ne _ fun hji => by rw [hji, hold] at hj; cases hj]
        exact hj
      · rw [List.mem_singleton.1 he]
        refine ⟨i, ?_⟩
        rw [put_calls_self]
        rfl
    · rintro ⟨j, hj⟩
      by_cases hji : j = i
      · subst hji
        rw [put_calls_self] at hj
        exact ⟨_, List.mem_append_right _ List.mem_cons_self, Option.some.inj hj⟩
      · rw [put_calls_ne _ hji] at hj
        obtain ⟨e, he, heq⟩ := (h.created session').2 ⟨j, hj⟩
        exact ⟨e, List.mem_append_left _ he, heq⟩
    · by_cases hji : j = i
      · by_cases hki : k = i
        · rw [hji, hki]
        · rw [hji, put_calls_self] at hj
          rw [put_calls_ne _ hki] at hk
          exact absurd (hk.trans hj.symm) (hother k hki)
      · rw [put_calls_ne _ hji] at hj
        by_cases hki : k = i
        · rw [hki, put_calls_self] at hk
          exact absurd (hj.trans hk.symm) (hother j hji)
        · rw [put_calls_ne _ hki] at hk
          exact h.once j k session' hj hk
  · unfold insertSession
    dsimp only
    rw [if_pos (Nat.not_lt.1 hroom)]
    exact Sessions.put ⟨h.numbered, fun hlt => absurd hlt hroom, h.created, h.once⟩ hold rfl

/-! ## The invariant -/

structure Sound (crates : Crates) (config : Config) (s : SecurityState) : Prop where
  secrets : Secrets crates s.drawn s.placed s.calls
  tokens : Tokens crates config s
  sessions : Sessions s

/-- A call moves and leaves the tables alone: it keeps what it holds or forgets
it. -/
theorem Secrets.put {placed : List String} {i : Nat} {pc : CallPc}
    (h : Secrets crates s.drawn placed s.calls)
    (hheld : pc.held = [] ∨ pc.held = (s.calls i).held) :
    Secrets crates s.drawn placed (s.put i pc).calls := by
  rcases hheld with hheld | hheld
  · refine h.move ?_ fun text htext => List.mem_append_right _ ?_
    · rw [hheld]
      exact (List.nodup_append.1 (h.nodup i)).2.1
    · rw [hheld] at htext
      exact htext
  · refine h.move ?_ fun text htext => ?_
    · rw [hheld]
      exact h.nodup i
    · rw [hheld] at htext
      exact htext

/-- The call drew a secret. -/
theorem Tokens.drawn {secret : Secret} (h : Tokens crates config s) :
    Tokens crates config { s with drawn := secret :: s.drawn } :=
  ⟨h.issued, h.keys, h.tokens, h.lifetime, h.stamped, h.records, h.spent, h.valid, h.reading⟩

theorem Sessions.drawn {secret : Secret} (h : Sessions s) :
    Sessions { s with drawn := secret :: s.drawn } := ⟨h.numbered, h.next, h.created, h.once⟩

/-- The exchange keeps its request and the token it spent. -/
theorem Tokens.exchanging {i : Nat} {parts : Parts} {token : String}
    {stage stage' : ExchangeStage} (h : Tokens crates config s)
    (hi : s.calls i = .exchanging parts token stage)
    (hspent : (CallPc.exchanging parts token stage').spent? = (s.calls i).spent?)
    (hreading : ∀ now, (CallPc.exchanging parts token stage').reading? = some now →
      (s.calls i).reading? = some now ∨ now = s.clock) :
    Tokens crates config (s.put i (.exchanging parts token stage')) := by
  refine h.put (fun _ hpc => by cases hpc) (fun _ hpc => by cases hpc)
    (fun token' now hpc => h.spent i token' now (hspent ▸ hpc)) (fun parts' hpc => ?_)
    fun now hpc => ?_
  · refine h.valid i parts' ?_
    rw [hi]
    exact hpc
  · rcases hreading now hpc with hold | rfl
    · exact h.reading i now hold
    · exact Nat.le_refl _

/-- What was known to the issue only is now in the table. -/
theorem Secrets.insertToken {i : Nat} {record : LaunchTokenRecord}
    (h : Secrets crates s.drawn s.placed s.calls) (hi : s.calls i = .issueStamped record) :
    Secrets crates s.drawn (s.insertLaunchToken i record).placed
      (s.insertLaunchToken i record).calls := by
  unfold insertLaunchToken
  dsimp only
  split
  · exact h.put (.inl rfl)
  · have hheld : (s.calls i).held = [record.token] := by rw [hi]; rfl
    have hplaced : (s.everIssued ++ [record]).map (·.token) ++
        s.sessions.flatMap (fun e => [e.2.sessionId, e.2.csrfToken]) =
        s.everIssued.map (·.token) ++ record.token ::
          s.sessions.flatMap (fun e => [e.2.sessionId, e.2.csrfToken]) := by
      rw [List.map_append, List.append_assoc]
      rfl
    refine h.move ?_ fun text htext => ?_
    · have hnodup := h.nodup i
      rw [hheld] at hnodup
      show ((s.everIssued ++ [record]).map (·.token) ++
        s.sessions.flatMap (fun e => [e.2.sessionId, e.2.csrfToken])).Nodup
      rw [hplaced, List.nodup_middle]
      exact hnodup
    · have htext : text ∈ (s.everIssued ++ [record]).map (·.token) ++
          s.sessions.flatMap (fun e => [e.2.sessionId, e.2.csrfToken]) := htext
      rw [hplaced] at htext
      rw [hheld]
      rcases List.mem_append.1 htext with hold | htext
      · exact List.mem_append_right _ (List.mem_append_left _ hold)
      · rcases List.mem_cons.1 htext with rfl | hold
        · exact List.mem_append_left _ List.mem_cons_self
        · exact List.mem_append_right _ (List.mem_append_right _ hold)

theorem Sound.insertSession {i : Nat} {parts : Parts} {token : String} {now : Nat}
    {session : SessionRecord} (h : Sound crates config s)
    (hi : s.calls i = .exchanging parts token (.drawn now session)) :
    Sound crates config (s.insertSession crates i parts token now session) := by
  obtain ⟨hsecrets, htokens, hsessions⟩ := h
  by_cases hroom : s.sessions.length < maxEntries
  · have hsessions' := hsessions.insert hsecrets hi
    obtain ⟨setCookie, heq⟩ := hsessions.append hsecrets hi hroom
    rw [heq] at hsessions' ⊢
    refine ⟨?_, ?_, hsessions'⟩
    · have hheld : (s.calls i).held = [session.sessionId, session.csrfToken] := by rw [hi]; rfl
      have hplaced : s.everIssued.map (·.token) ++
          (s.sessions ++ [(s.sessions.length, session)]).flatMap
            (fun e => [e.2.sessionId, e.2.csrfToken]) = s.placed ++ (s.calls i).held := by
        rw [hheld, List.flatMap_append, ← List.append_assoc]
        rfl
      refine hsecrets.move ?_ fun text htext => ?_
      · show (s.everIssued.map (·.token) ++
          (s.sessions ++ [(s.sessions.length, session)]).flatMap
            (fun e => [e.2.sessionId, e.2.csrfToken])).Nodup
        rw [hplaced]
        exact List.nodup_append_comm.1 (hsecrets.nodup i)
      · have htext : text ∈ s.everIssued.map (·.token) ++
            (s.sessions ++ [(s.sessions.length, session)]).flatMap
              (fun e => [e.2.sessionId, e.2.csrfToken]) := htext
        rw [hplaced] at htext
        exact List.mem_append.2 (List.mem_append.1 htext).symm
    · refine Tokens.put ⟨htokens.issued, htokens.keys, htokens.tokens, htokens.lifetime,
        htokens.stamped, htokens.records, htokens.spent, htokens.valid, htokens.reading⟩
        (fun _ hpc => by cases hpc) (fun _ hpc => by cases hpc)
        (fun token' now' hpc => htokens.spent i token' now' ?_)
        (fun parts' hpc => htokens.valid i parts' ?_)
        (fun now' hpc => htokens.reading i now' ?_)
      all_goals rw [hi]; exact hpc
  · have hfull : s.insertSession crates i parts token now session =
        { s with nextSessionId := (s.nextSessionId + 1) % 2 ^ 64 }.put i .panicked := by
      unfold SecurityState.insertSession
      dsimp only
      rw [if_pos (Nat.not_lt.1 hroom)]
    refine ⟨?_, ?_, hsessions.insert hsecrets hi⟩
    · rw [hfull]
      exact hsecrets.put (.inl rfl)
    · rw [hfull]
      exact Tokens.plain ⟨htokens.issued, htokens.keys, htokens.tokens, htokens.lifetime,
        htokens.stamped, htokens.records, htokens.spent, htokens.valid, htokens.reading⟩
        ⟨nofun, rfl, rfl, rfl, rfl⟩

theorem sound_step (h : Sound crates config s) (hs : Step crates config s s') :
    Sound crates config s' := by
  obtain ⟨hsecrets, htokens, hsessions⟩ := h
  cases hs with
  | elapse time =>
    exact ⟨hsecrets, ⟨htokens.issued, htokens.keys, htokens.tokens, htokens.lifetime,
      htokens.stamped, htokens.records, htokens.spent, htokens.valid,
      fun i now hi => Nat.le_trans (htokens.reading i now hi) (Nat.le_add_right _ _)⟩,
      ⟨hsessions.numbered, hsessions.next, hsessions.created, hsessions.once⟩⟩
  | issue hi =>
    exact ⟨hsecrets.put (.inl rfl), htokens.plain ⟨nofun, rfl, rfl, rfl, rfl⟩,
      hsessions.put (by rw [hi]; rfl) rfl⟩
  | ask token hi =>
    exact ⟨hsecrets.put (.inl rfl), htokens.plain ⟨nofun, rfl, rfl, rfl, rfl⟩,
      hsessions.put (by rw [hi]; rfl) rfl⟩
  | exchange parts token hi hvalid =>
    refine ⟨hsecrets.put (.inl rfl), ?_, hsessions.put (by rw [hi]; rfl) rfl⟩
    refine htokens.put (fun _ hpc => by cases hpc) (fun _ hpc => by cases hpc)
      (fun _ _ hpc => by cases hpc) (fun parts' hpc => ?_) (fun _ hpc => by cases hpc)
    cases hpc
    exact hvalid
  | refuse parts token error hi hvalid =>
    exact ⟨hsecrets.put (.inl rfl), htokens.plain ⟨nofun, rfl, rfl, rfl, rfl⟩,
      hsessions.put (by rw [hi]; rfl) rfl⟩
  | drawToken secret hfresh hi =>
    exact ⟨hsecrets.draw hfresh (by rw [hi]; rfl),
      htokens.drawn.plain ⟨nofun, rfl, rfl, rfl, rfl⟩,
      hsessions.drawn.put (by dsimp only; rw [hi]; rfl) rfl⟩
  | drawSession secret hfresh hi =>
    exact ⟨hsecrets.draw hfresh (by rw [hi]; rfl),
      htokens.drawn.exchanging hi (by dsimp only; rw [hi]; rfl)
        fun now hnow => .inl (by dsimp only; rw [hi]; exact hnow),
      hsessions.drawn.put (by dsimp only; rw [hi]; rfl) rfl⟩
  | drawCsrf secret hfresh hi =>
    exact ⟨hsecrets.draw hfresh (by rw [hi]; rfl),
      htokens.drawn.exchanging hi (by dsimp only; rw [hi]; rfl)
        fun now hnow => .inl (by dsimp only; rw [hi]; exact hnow),
      hsessions.drawn.put (by dsimp only; rw [hi]; rfl) rfl⟩
  | issueFails hi =>
    exact ⟨hsecrets.put (.inl rfl), htokens.plain ⟨nofun, rfl, rfl, rfl, rfl⟩,
      hsessions.put (by rw [hi]; rfl) rfl⟩
  | exchangeFails hi =>
    exact ⟨hsecrets.put (.inl rfl), htokens.plain ⟨nofun, rfl, rfl, rfl, rfl⟩,
      hsessions.put (by rw [hi]; rfl) rfl⟩
  | stampToken hi =>
    refine ⟨hsecrets.put (.inr (by rw [hi]; rfl)), ?_, hsessions.put (by rw [hi]; rfl) rfl⟩
    refine htokens.put (fun record hpc => ?_) (fun _ hpc => by cases hpc)
      (fun _ _ hpc => by cases hpc) (fun _ hpc => by cases hpc) (fun _ hpc => by cases hpc)
    cases hpc
    rfl
  | insertToken hi =>
    refine ⟨?_, htokens.issue hsecrets hi, ?_⟩
    · have hdrawn : ∀ i record, (s.insertLaunchToken i record).drawn = s.drawn := by
        intro i record
        unfold insertLaunchToken
        dsimp only
        split <;> rfl
      rw [hdrawn]
      exact hsecrets.insertToken hi
    · unfold insertLaunchToken
      dsimp only
      split
      · exact Sessions.put ⟨hsessions.numbered, hsessions.next, hsessions.created, hsessions.once⟩
          (by dsimp only; rw [hi]; rfl) rfl
      · exact Sessions.put ⟨hsessions.numbered, hsessions.next, hsessions.created, hsessions.once⟩
          (by dsimp only; rw [hi]; rfl) rfl
  | stampExpires hi =>
    refine ⟨hsecrets.put (.inl rfl), ?_, hsessions.put (by rw [hi]; rfl) rfl⟩
    refine htokens.put (fun _ hpc => by cases hpc) (fun _ hpc => by cases hpc)
      (fun _ _ hpc => by cases hpc) (fun _ hpc => by cases hpc) (fun now hpc => ?_)
    cases hpc
    exact Nat.le_refl _
  | expires hi =>
    exact ⟨hsecrets.put (.inl rfl),
      (htokens.retain (prune_sublist _ _)).plain ⟨nofun, rfl, rfl, rfl, rfl⟩,
      Sessions.put ⟨hsessions.numbered, hsessions.next, hsessions.created, hsessions.once⟩
        (by dsimp only; rw [hi]; rfl) rfl⟩
  | stampExchange hi =>
    refine ⟨hsecrets.put (.inl rfl), htokens.exchanging hi (by rw [hi]; rfl) fun now hnow => ?_,
      hsessions.put (by rw [hi]; rfl) rfl⟩
    cases hnow
    exact .inr rfl
  | consume hi =>
    refine ⟨?_, htokens.consume hsecrets hi, ?_⟩
    · unfold consumeLaunchToken
      dsimp only
      split
      · exact hsecrets.put (.inl rfl)
      · exact hsecrets.put (.inl rfl)
    · unfold consumeLaunchToken
      dsimp only
      split
      · exact Sessions.put ⟨hsessions.numbered, hsessions.next, hsessions.created, hsessions.once⟩
          (by dsimp only; rw [hi]; rfl) rfl
      · exact Sessions.put ⟨hsessions.numbered, hsessions.next, hsessions.created, hsessions.once⟩
          (by dsimp only; rw [hi]; rfl) rfl
  | insertSession hi => exact Sound.insertSession ⟨hsecrets, htokens, hsessions⟩ hi

theorem sound_fromSeed {initialLaunchToken launcherSecret : Secret} {clock : Nat} :
    Sound crates config (fromSeed crates initialLaunchToken launcherSecret clock) where
  secrets := by
    refine ⟨fun i => List.nodup_singleton _, fun i j _ text htext => (by cases htext), ?_⟩
    intro i text htext
    exact ⟨initialLaunchToken, List.mem_cons_self, List.mem_singleton.1 htext⟩
  tokens := by
    refine ⟨fun e he => ?_, List.nodup_singleton _, List.nodup_singleton _, fun record hrecord => ?_,
      fun _ _ hi => (by cases hi), fun _ _ hi => (by cases hi), fun _ _ _ hi => (by cases hi),
      fun _ _ hi => (by cases hi), fun _ _ hi => (by cases hi)⟩
    · rw [List.mem_singleton.1 he]
      exact List.mem_cons_self
    · rw [List.mem_singleton.1 hrecord]
  sessions := by
    refine ⟨rfl, fun _ => rfl, fun session => ⟨?_, ?_⟩, fun _ _ _ hi => (by cases hi)⟩
    · rintro ⟨e, he, -⟩
      cases he
    · rintro ⟨i, hi⟩
      cases hi

theorem security_sound : (security crates config).Inductive (Sound crates config) where
  init := by
    rintro s ⟨initialLaunchToken, launcherSecret, clock, -, rfl⟩
    exact sound_fromSeed
  step s l s' h hs := sound_step h (step_of_next hs)

/-! ## What a step changes -/

/-- The clock does not go back, issued tokens stay issued, and a reading of a
call was taken during the call. -/
theorem step_readings (hs : Step crates config s s') : s.clock ≤ s'.clock ∧
    (∀ record ∈ s.everIssued, record ∈ s'.everIssued) ∧
    ∀ i now, (s'.calls i).reading? = some now → (s.calls i).reading? = some now ∨ now = s.clock := by
  have hput : ∀ {t : SecurityState} {i : Nat} {pc : CallPc}, t.calls = s.calls →
      (∀ now, pc.reading? = some now → (s.calls i).reading? = some now ∨ now = s.clock) →
      ∀ j now, ((t.put i pc).calls j).reading? = some now →
        (s.calls j).reading? = some now ∨ now = s.clock := by
    intro t i pc hcalls hpc j
    refine forall_put (P := fun j pc' => ∀ now, pc'.reading? = some now →
      (s.calls j).reading? = some now ∨ now = s.clock) (fun j _ now hj => ?_) hpc j
    rw [hcalls] at hj
    exact .inl hj
  have hplain : ∀ {t : SecurityState} {i : Nat} {pc : CallPc}, t.calls = s.calls →
      pc.reading? = none → ∀ j now, ((t.put i pc).calls j).reading? = some now →
        (s.calls j).reading? = some now ∨ now = s.clock :=
    fun hcalls hpc => hput hcalls fun now hnow => by rw [hpc] at hnow; cases hnow
  cases hs with
  | elapse time => exact ⟨Nat.le_add_right _ _, fun _ hr => hr, fun _ _ hi => .inl hi⟩
  | drawSession secret hfresh hi | drawCsrf secret hfresh hi =>
    refine ⟨Nat.le_refl _, fun _ hr => hr, hput rfl fun now hnow => .inl ?_⟩
    rw [hi]
    exact hnow
  | stampExpires hi | stampExchange hi =>
    refine ⟨Nat.le_refl _, fun _ hr => hr, hput rfl fun now hnow => .inr ?_⟩
    exact (Option.some.inj hnow).symm
  | insertToken hi =>
    unfold insertLaunchToken
    dsimp only
    split
    · exact ⟨Nat.le_refl _, fun _ hr => hr, hplain rfl rfl⟩
    · exact ⟨Nat.le_refl _, fun _ hr => List.mem_append_left _ hr, hplain rfl rfl⟩
  | consume hi =>
    unfold consumeLaunchToken
    dsimp only
    split
    · exact ⟨Nat.le_refl _, fun _ hr => hr, hplain rfl rfl⟩
    · refine ⟨Nat.le_refl _, fun _ hr => hr, hput rfl fun now hnow => .inl ?_⟩
      rw [hi]
      exact hnow
  | insertSession hi =>
    unfold SecurityState.insertSession
    dsimp only
    split
    · exact ⟨Nat.le_refl _, fun _ hr => hr, hplain rfl rfl⟩
    · refine ⟨Nat.le_refl _, fun _ hr => hr, hput rfl fun now hnow => .inl ?_⟩
      rw [hi]
      split at hnow
      · exact hnow
      · cases hnow
  | _ => exact ⟨Nat.le_refl _, fun _ hr => hr, hplain rfl rfl⟩

/-- A call that begins after the token has expired does not spend it. -/
theorem spent_late {ls : List SecurityLabel} {i : Nat} (time : Nat)
    (hrun : (security crates config).Run s ls s') :
    time ≤ s.clock → (s.calls i).reading? = none → time ≤ s'.clock ∧
      ∀ now, (s'.calls i).reading? = some now → time ≤ now := by
  intro htime hnone
  have hstep : ∀ s l s', (time ≤ s.clock ∧ ∀ now, (s.calls i).reading? = some now → time ≤ now) →
      (security crates config).step s l s' →
      time ≤ s'.clock ∧ ∀ now, (s'.calls i).reading? = some now → time ≤ now := by
    rintro s l s' ⟨hclock, hreading⟩ hs
    obtain ⟨hle, -, hnew⟩ := step_readings (step_of_next hs)
    refine ⟨Nat.le_trans hclock hle, fun now hnow => ?_⟩
    rcases hnew i now hnow with hold | rfl
    · exact hreading now hold
    · exact hclock
  exact hrun.preserves hstep ⟨htime, fun now hnow => by rw [hnone] at hnow; cases hnow⟩

/-- A live entry stays in the table, unless it is its own token that is
consumed or the numbers have come round to its own. -/
theorem step_survives (h : Sound crates config s) (hs : Step crates config s s')
    {e : Nat × LaunchTokenRecord} (he : e ∈ s.launchTokens) (hlive : s.clock < e.2.expiresAt) :
    e ∈ s'.launchTokens ∨
      (∃ i parts now, s.calls i = .exchanging parts e.2.token (.stamped now) ∧
        s'.calls i = .exchanging parts e.2.token (.consumed now)) ∨
      ∃ i record, s.calls i = .issueStamped record ∧ s.nextLaunchTokenId = e.1 := by
  cases hs with
  | @insertToken i record hi =>
    by_cases hid : s.nextLaunchTokenId = e.1
    · exact .inr (.inr ⟨i, record, hi, hid⟩)
    · refine .inl ?_
      unfold insertLaunchToken
      dsimp only
      split
      · exact he
      · exact List.mem_append_left _ (List.mem_filter.2 ⟨he, decide_eq_true fun h => hid h.symm⟩)
  | @expires i token now hi =>
    have hle := h.tokens.reading i now (by rw [hi]; rfl)
    exact .inl (mem_prune.2 ⟨he, by omega⟩)
  | @consume i parts token now hi =>
    have hle := h.tokens.reading i now (by rw [hi]; rfl)
    have hkept : e ∈ prune now s.launchTokens := mem_prune.2 ⟨he, by omega⟩
    unfold consumeLaunchToken
    rcases h.tokens.matched h.secrets now token with ⟨hnone, -⟩ | ⟨other, hother, -, rfl, hid⟩
    · simp only [hnone]
      exact .inl hkept
    · simp only [hid]
      by_cases heq : e.1 = other.1
      · obtain rfl := List.inj_on_of_nodup_map h.tokens.keys he hother heq
        exact .inr (.inl ⟨i, parts, now, hi, put_calls_self i _⟩)
      · exact .inl (List.mem_filter.2 ⟨hkept, decide_eq_true heq⟩)
  | insertSession hi =>
    unfold SecurityState.insertSession
    dsimp only
    split
    · exact .inl he
    · exact .inl he
  | _ => exact .inl he

/-! ## The contract -/

/-- The call is an exchange that was accepted. -/
def Accepted (s : SecurityState) (i : Nat) (parts : Parts) (token : String)
    (exchange : SessionExchange) : Prop := s.calls i = .exchanged parts token (.ok exchange)

structure LaunchTokenContract (crates : Crates) (config : Config) (s : SecurityState) : Prop where
  /-- what is accepted is an issued token that has not expired, from the right
  Host and Origin -/
  accepted : ∀ i parts token exchange, Accepted s i parts token exchange →
    (∃ record ∈ s.everIssued, record.token = token ∧
      exchange.now < record.issuedAt + launchTokenLifetime) ∧
    Carries parts "host" config.expectedHost ∧ Carries parts "origin" config.publicOrigin
  /-- the issued tokens are those of the calls and of the seed, and all differ -/
  issued : ∀ i record, s.calls i = .issued (some record) → record ∈ s.everIssued
  distinct : (s.everIssued.map (·.token)).Nodup
  once : ∀ i j token parts parts' exchange exchange', Accepted s i parts token exchange →
    Accepted s j parts' token exchange' → i = j
  /-- an exchange called after the token has expired is not accepted -/
  late : ∀ record ∈ s.everIssued, record.issuedAt + launchTokenLifetime ≤ s.clock →
    ∀ i, s.calls i = .idle → ∀ ls s', (security crates config).Run s ls s' →
    ∀ parts exchange, ¬ Accepted s' i parts record.token exchange
  /-- a request from elsewhere is refused at once and leaves the tokens alone -/
  elsewhere : ∀ i parts token s',
    ¬(Carries parts "host" config.expectedHost ∧ Carries parts "origin" config.publicOrigin) →
    s.next crates config (.exchange i parts token) = some s' →
    s'.launchTokens = s.launchTokens ∧ ∃ error, s'.calls i = .exchanged parts token (.error error)
  /-- an exchange goes on if its token is in the table and alive, and is
  refused otherwise -/
  consumed : ∀ i parts token now, s.calls i = .exchanging parts token (.stamped now) →
    ((∃ e ∈ s.launchTokens, now < e.2.expiresAt ∧ e.2.token = token) ∧
      (s.consumeLaunchToken crates i parts token now).calls i =
        .exchanging parts token (.consumed now)) ∨
    ((∀ e ∈ s.launchTokens, now < e.2.expiresAt → e.2.token ≠ token) ∧
      (s.consumeLaunchToken crates i parts token now).calls i =
        .exchanged parts token (.error invalidLaunchToken))
  /-- the other live tokens stay; a number comes round after 2^64 tokens -/
  others : ∀ l s', s.next crates config l = some s' → ∀ e ∈ s.launchTokens,
    s.clock < e.2.expiresAt → e ∈ s'.launchTokens ∨
      (∃ i parts now, s.calls i = .exchanging parts e.2.token (.stamped now) ∧
        s'.calls i = .exchanging parts e.2.token (.consumed now)) ∨
      ∃ i record, s.calls i = .issueStamped record ∧ s.nextLaunchTokenId = e.1
  sessions : ∀ i j token token' parts parts' exchange exchange',
    Accepted s i parts token exchange → Accepted s j parts' token' exchange' → i ≠ j →
    exchange.session.sessionId ≠ exchange'.session.sessionId ∧
      exchange.session.csrfToken ≠ exchange'.session.csrfToken

theorem map_sublist_flatMap {α β : Type} (f g : α → β) (l : List α) :
    (l.map f).Sublist (l.flatMap fun a => [f a, g a]) ∧
      (l.map g).Sublist (l.flatMap fun a => [f a, g a]) := by
  induction l with
  | nil => exact ⟨.slnil, .slnil⟩
  | cons a l ih => exact ⟨(ih.1.cons _).cons_cons _, (ih.2.cons_cons _).cons _⟩

/-- A session is known by its id, and by its CSRF token. -/
theorem sessions_inj (h : Sound crates config s) {a b : SessionRecord}
    (ha : ∃ e ∈ s.sessions, e.2 = a) (hb : ∃ e ∈ s.sessions, e.2 = b)
    (heq : a.sessionId = b.sessionId ∨ a.csrfToken = b.csrfToken) : a = b := by
  obtain ⟨e, he, rfl⟩ := ha
  obtain ⟨e', he', rfl⟩ := hb
  have hnodup := (List.nodup_append.1 (List.nodup_append.1 (h.secrets.nodup 0)).2.1).2.1
  have hsub := map_sublist_flatMap (fun e : Nat × SessionRecord => e.2.sessionId)
    (fun e => e.2.csrfToken) s.sessions
  rcases heq with heq | heq
  · rw [List.inj_on_of_nodup_map (hnodup.sublist hsub.1) he he' heq]
  · rw [List.inj_on_of_nodup_map (hnodup.sublist hsub.2) he he' heq]

theorem Secrets.issued_nodup (h : Secrets crates s.drawn s.placed s.calls) :
    (s.everIssued.map (·.token)).Nodup :=
  (List.nodup_append.1 (List.nodup_append.1 (h.nodup 0)).2.1).1

theorem Accepted.stored {i : Nat} {parts : Parts} {token : String} {exchange : SessionExchange}
    (h : Sessions s) (hi : Accepted s i parts token exchange) :
    ∃ e ∈ s.sessions, e.2 = exchange.session := by
  refine (h.created exchange.session).2 ⟨i, ?_⟩
  rw [show s.calls i = _ from hi]
  rfl

/-- **One-time launch tokens.** In every reachable state, whatever calls run
beside each other. -/
theorem launchTokens_oneTime (hr : (security crates config).Reachable s) :
    LaunchTokenContract crates config s := by
  have h := security_sound.reachable s hr
  have hspent : ∀ {t : SecurityState} {i parts token exchange}, Sound crates config t →
      Accepted t i parts token exchange →
      Spent t.everIssued t.launchTokens t.calls i token exchange.now := by
    intro t i parts token exchange ht hi
    exact ht.tokens.spent i token exchange.now (by rw [show t.calls i = _ from hi]; rfl)
  refine ⟨?_, ?_, ?_, ?_, ?_, ?_, ?_, fun l s' hs e => step_survives h (step_of_next hs), ?_⟩
  · intro i parts token exchange hi
    obtain ⟨record, hrecord, heq, hlt⟩ := (hspent h hi).issued
    refine ⟨⟨record, hrecord, heq, ?_⟩, validate_eq_ok.1 (h.tokens.valid i parts ?_)⟩
    · rw [← h.tokens.lifetime record hrecord]
      exact hlt
    · rw [show s.calls i = _ from hi]
      rfl
  · intro i record hi
    exact h.tokens.records i record (by rw [hi]; rfl)
  · exact h.secrets.issued_nodup
  · intro i j token parts parts' exchange exchange' hi hj
    refine (hspent h hj).once i exchange.now ?_
    rw [show s.calls i = _ from hi]
    rfl
  · intro record hrecord hexpired i hidle ls s' hrun parts exchange hi
    obtain ⟨-, hreading⟩ := spent_late _ hrun hexpired (by rw [hidle]; rfl)
    have hs' := security_sound.reachable s' (hr.run hrun)
    have hmono : ∀ record ∈ s.everIssued, record ∈ s'.everIssued :=
      LTS.Run.mono (R := fun a b => ∀ record ∈ a.everIssued, record ∈ b.everIssued)
        (fun _ _ hr => hr) (fun hab hbc record hr => hbc record (hab record hr))
        (fun _ _ _ hs => (step_readings (step_of_next hs)).2.1) hrun
    obtain ⟨other, hother, heq, hlt⟩ := (hspent hs' hi).issued
    obtain rfl := List.inj_on_of_nodup_map hs'.secrets.issued_nodup hother (hmono record hrecord) heq
    have hle := hreading exchange.now (by rw [show s'.calls i = _ from hi]; rfl)
    rw [hs'.tokens.lifetime other hother] at hlt
    omega
  · intro i parts token s' helsewhere hs
    simp only [next] at hs
    split at hs
    · split at hs
      · rename_i hvalid
        exact absurd (validate_eq_ok.1 hvalid) helsewhere
      · cases hs
        exact ⟨rfl, _, put_calls_self i _⟩
    · cases hs
  · intro i parts token now _
    unfold consumeLaunchToken
    rcases h.tokens.matched h.secrets now token with ⟨hnone, hall⟩ | ⟨e, he, hlive, heq, hid⟩
    · simp only [hnone]
      exact .inr ⟨hall, put_calls_self i _⟩
    · simp only [hid]
      exact .inl ⟨⟨e, he, hlive, heq⟩, put_calls_self i _⟩
  · intro i j token token' parts parts' exchange exchange' hi hj hij
    have hne : exchange.session ≠ exchange'.session := by
      intro heq
      refine hij (h.sessions.once i j exchange.session ?_ ?_)
      · rw [show s.calls i = _ from hi]
        rfl
      · rw [show s.calls j = _ from hj, heq]
        rfl
    have hstored := hi.stored h.sessions
    have hstored' := hj.stored h.sessions
    exact ⟨fun heq => hne (sessions_inj h hstored hstored' (.inl heq)),
      fun heq => hne (sessions_inj h hstored hstored' (.inr heq))⟩

def sampleSecret (n : Nat) : Secret := ⟨List.replicate 32 (UInt8.ofNat n), List.length_replicate ..⟩

def sampleConfig : Config := .fromSeed ⟨43121, by decide, by decide⟩

def sampleParts : Parts where
  headers := [("host", bytesOf "127.0.0.1:43121"), ("origin", bytesOf "http://127.0.0.1:43121")]

def sampleToken : String := sampleCrates.base64.encode (sampleSecret 1).val

/-- Two exchanges of the initial token, the second of which comes late to the
lock. -/
def sampleExchanges : List SecurityLabel :=
  [.exchange 1 sampleParts sampleToken, .exchange 2 sampleParts sampleToken, .advance 1, .advance 2,
   .advance 1, .draw 1 (some (sampleSecret 3)), .advance 2, .draw 1 (some (sampleSecret 4)),
   .advance 1]

theorem launchTokens_oneTime_sample : ∃ s, LaunchTokenContract sampleCrates sampleConfig s ∧
    (s.calls 1).session? = some ⟨sampleCrates.base64.encode (sampleSecret 3).val,
      sampleCrates.base64.encode (sampleSecret 4).val⟩ ∧
    s.calls 2 = .exchanged sampleParts sampleToken (.error invalidLaunchToken) := by
  have hrun : (LTS.exec (SecurityState.next sampleCrates sampleConfig)
      (fromSeed sampleCrates (sampleSecret 1) (sampleSecret 2) 0) sampleExchanges).map (fun s =>
        ((s.calls 1).session?, s.calls 2)) =
      some (some ⟨sampleCrates.base64.encode (sampleSecret 3).val,
        sampleCrates.base64.encode (sampleSecret 4).val⟩,
        .exchanged sampleParts sampleToken (.error invalidLaunchToken)) := by decide +kernel
  obtain ⟨s, hs, heq⟩ := Option.map_eq_some_iff.1 hrun
  obtain ⟨hfirst, hsecond⟩ := Prod.mk.inj heq
  have hr : (security sampleCrates sampleConfig).Reachable s :=
    LTS.reachable_of_exec ⟨_, _, 0, by decide, rfl⟩ hs
  exact ⟨s, launchTokens_oneTime hr, hfirst, hsecond⟩

end CodingAgent.L4.App.Security
