import CodingAgent.Core.Newest
import CodingAgent.L3Api.ServiceControls
import CodingAgent.L5Web.Reducer
import Mathlib.Data.List.Nodup

/-!
# Convergence of the service state

A controller whose clones set the service state in any order, any number of
connections that read its snapshots, late, repeatedly and coalesced, bootstrap
responses that carry the snapshot current when they were made, and any number
of clients that receive responses and the controls of any connection in any
order and any number of times after their first bootstrap. Generations are
exact numbers on the wire.

* `serviceInv_inductive`: what holds of every reachable state.
* `service_converges`: generations identify snapshots, `Quiescing` is final,
  every connection sends increasing generations, and every client shows the
  newest snapshot it received.
-/
namespace CodingAgent.L5.Web
open CodingAgent.L1.Domain CodingAgent.L2.Store CodingAgent.L3.Api

/-- A browser session and, as a ghost, the snapshots it received from its first
bootstrap on. -/
structure ServiceClient where
  agent : AgentState
  received : List ServiceStateSnapshot

structure ServiceWorld where
  current : ServiceStateSnapshot
  /-- every snapshot the controller ever had, oldest first -/
  made : List ServiceStateSnapshot
  connections : Nat → Option SseState
  responses : List BootstrapResponse
  clients : Nat → ServiceClient

inductive ServiceLabel where
  | set (next : ServiceState)
  | connect (i : Nat) (log : List TaskEvent) (published after : Int)
  | stream (i : Nat) (l : SseLabel)
  | respond (repositories : List Repository) (tasks : List Task) (latestEventId : Nat)
  | receiveBootstrap (j : Nat) (bootstrap : BootstrapResponse)
  | receiveControl (j i : Nat) (control : ServiceStateSnapshot)
  | act (j : Nat) (action : AgentAction)

/-- The snapshot a bootstrap response carries. -/
def BootstrapResponse.service (bootstrap : BootstrapResponse) : ServiceStateSnapshot :=
  ⟨bootstrap.serviceState, bootstrap.serviceStateGeneration⟩

/-- The two actions that carry a snapshot. -/
def AgentAction.isService : AgentAction → Bool
  | .bootstrapReceived _ | .serviceReceived .. => true
  | _ => false

namespace ServiceWorld

/-- `ServiceStateController::set`, whose generation is a `u64`: one more than
the last panics under the lock before anything is stored.
mirrors crates/coding-agent-app/src/service_state.rs:55-84 -/
def set (s : ServiceWorld) (next : ServiceState) : ServiceWorld :=
  match s.current.set next with
  | .error _ => s
  | .ok snapshot =>
    if snapshot = s.current ∨ 2 ^ 64 ≤ snapshot.generation then s
    else { s with current := snapshot, made := s.made ++ [snapshot] }

def setConnection (s : ServiceWorld) (i : Nat) (connection : SseState) : ServiceWorld :=
  { s with connections := Function.update s.connections i (some connection) }

def setClient (s : ServiceWorld) (j : Nat) (client : ServiceClient) : ServiceWorld :=
  { s with clients := Function.update s.clients j client }

theorem setConnection_self (s : ServiceWorld) (i : Nat) (connection : SseState) :
    (s.setConnection i connection).connections i = some connection := Function.update_self ..

theorem setConnection_of_ne (s : ServiceWorld) {i k : Nat} (h : k ≠ i) (connection : SseState) :
    (s.setConnection i connection).connections k = s.connections k := Function.update_of_ne h ..

theorem setClient_self (s : ServiceWorld) (j : Nat) (client : ServiceClient) :
    (s.setClient j client).clients j = client := Function.update_self ..

theorem setClient_of_ne (s : ServiceWorld) {j k : Nat} (h : k ≠ j) (client : ServiceClient) :
    (s.setClient j client).clients k = s.clients k := Function.update_of_ne h ..

/-- A client receives a snapshot with an action. -/
def receive (s : ServiceWorld) (j : Nat) (action : AgentAction) (snapshot : ServiceStateSnapshot) :
    ServiceWorld :=
  s.setClient j { agent := agentReducer (s.clients j).agent action,
                  received := (s.clients j).received ++ [snapshot] }

end ServiceWorld

def serviceNext (s : ServiceWorld) : ServiceLabel → Option ServiceWorld
  | .set next => some (s.set next)
  | .connect i log published after =>
    if (s.connections i).isNone then some (s.setConnection i (.connect log published after))
    else none
  | .stream i l =>
    match s.connections i with
    | none => none
    | some connection =>
      if ∀ snapshot ∈ l.snapshots, snapshot ∈ s.made then
        (sseNext connection l).map (s.setConnection i)
      else none
  | .respond repositories tasks latestEventId =>
    some { s with responses := s.responses ++ [{
      repositories, tasks, latestEventId, serviceState := s.current.state,
      serviceStateGeneration := s.current.generation }] }
  | .receiveBootstrap j bootstrap =>
    if bootstrap ∈ s.responses then
      some (s.receive j (.bootstrapReceived bootstrap) bootstrap.service)
    else none
  | .receiveControl j i control =>
    match s.connections i with
    | none => none
    | some connection =>
      if control ∈ controls connection.out ∧ (s.clients j).received ≠ [] then
        some (s.receive j (.serviceReceived control.state control.generation) control)
      else none
  | .act j action =>
    if action.isService then none
    else some (s.setClient j { s.clients j with agent := agentReducer (s.clients j).agent action })

/-- The controller with its first snapshot, before any request. -/
def ServiceWorld.initial (state : ServiceState) : ServiceWorld :=
  { current := .new state, made := [.new state], connections := fun _ => none, responses := [],
    clients := fun _ => { agent := initialAgentState, received := [] } }

def serviceWorld : LTS ServiceWorld ServiceLabel :=
  LTS.ofFn (fun s => ∃ state, s = .initial state) serviceNext

/-! ## The reducer -/

/-- What a client shows of the service. -/
def AgentState.service (agent : AgentState) : Option ServiceState × Nat :=
  (agent.serviceState, agent.serviceGeneration)

theorem upsertRestTask_service (state : AgentState) (task : Task) :
    (upsertRestTask state task).service = state.service := by
  unfold upsertRestTask
  repeat' split
  all_goals rfl

theorem reducePersistedEvent_service (state : AgentState) (event : TaskEvent) :
    (reducePersistedEvent state event).service = state.service := by
  have hsummary : (updateSummaryForEvent state event).service = state.service := by
    unfold updateSummaryForEvent
    repeat' split
    all_goals rfl
  unfold reducePersistedEvent
  split
  · rfl
  · split
    · rfl
    · split
      · rfl
      · exact hsummary

theorem installDetail_service (state : AgentState) (taskId : TaskId) (generation : Nat)
    (detail : TaskDetail) :
    (installDetail state taskId generation detail).service = state.service := by
  unfold installDetail
  dsimp only
  repeat' split
  all_goals rfl

/-- The other actions leave the service alone. -/
theorem agentReducer_service (state : AgentState) {action : AgentAction}
    (h : action.isService = false) : (agentReducer state action).service = state.service := by
  cases action with
  | bootstrapReceived | serviceReceived => cases h
  | bootstrapStarted | bootstrapFailed | connectionChanged | sessionExpired | repositoryUpserted
  | taskSelected | cancelStarted => rfl
  | taskUpserted task => exact upsertRestTask_service state task
  | detailReceived taskId generation detail => exact installDetail_service state _ _ _
  | detailFailed =>
    simp only [agentReducer]
    split <;> rfl
  | eventReceived event => exact reducePersistedEvent_service state event
  | eventUnknown =>
    simp only [agentReducer, reduceUnknownEvent]
    repeat' split
    all_goals rfl
  | cancelSucceeded task => exact upsertRestTask_service state task
  | cancelFailed taskId error =>
    simp only [agentReducer, reduceCancelFailed]
    repeat' split
    all_goals rfl

/-- What a client shows is this snapshot. -/
def Shows (agent : AgentState) (snapshot : ServiceStateSnapshot) : Prop :=
  agent.service = (some snapshot.state, snapshot.generation)

theorem installBootstrap_service (state : AgentState) (bootstrap : BootstrapResponse) :
    (installBootstrap state bootstrap).service =
      if state.serviceGeneration ≤ bootstrap.service.generation then
        (some bootstrap.service.state, bootstrap.service.generation)
      else state.service := by
  by_cases h : state.serviceGeneration ≤ bootstrap.service.generation
  · rw [if_pos h]
    simp only [BootstrapResponse.service] at h
    simp only [installBootstrap, AgentState.service, BootstrapResponse.service, if_pos h]
  · rw [if_neg h]
    simp only [BootstrapResponse.service] at h
    simp only [installBootstrap, AgentState.service, if_neg h]

theorem serviceReceived_service (state : AgentState) (control : ServiceStateSnapshot) :
    (agentReducer state (.serviceReceived control.state control.generation)).service =
      if control.generation ≤ state.serviceGeneration then state.service
      else (some control.state, control.generation) := by
  simp only [agentReducer, AgentState.service]
  split <;> rfl

/-! ## The controller -/

structure ControllerInv (current : ServiceStateSnapshot) (made : List ServiceStateSnapshot) :
    Prop where
  mem : current ∈ made
  bound : ∀ snapshot ∈ made, snapshot.generation ≤ current.generation
  increasing : made.Pairwise fun a b => a.generation < b.generation
  final : ∀ snapshot ∈ made, snapshot.state = .quiescing → snapshot = current

/-- A `set` changes nothing, or leaves a state that is not final for one with the
next generation. -/
theorem set_cases (s : ServiceWorld) (next : ServiceState) :
    s.set next = s ∨ ∃ snapshot, snapshot.generation = s.current.generation + 1 ∧
      s.current.state ≠ .quiescing ∧
      s.set next = { s with current := snapshot, made := s.made ++ [snapshot] } := by
  unfold ServiceWorld.set ServiceStateSnapshot.set
  by_cases hsame : s.current.state = next
  · rw [if_pos hsame]
    exact Or.inl (if_pos (Or.inl rfl))
  · by_cases hquiescing : s.current.state = .quiescing
    · rw [if_neg hsame, if_pos hquiescing]
      exact Or.inl rfl
    · rw [if_neg hsame, if_neg hquiescing]
      dsimp only
      split
      · exact Or.inl rfl
      · exact Or.inr ⟨_, rfl, hquiescing, rfl⟩

theorem ControllerInv.grow {current snapshot : ServiceStateSnapshot}
    {made : List ServiceStateSnapshot} (h : ControllerInv current made)
    (hgeneration : snapshot.generation = current.generation + 1)
    (hstate : current.state ≠ .quiescing) : ControllerInv snapshot (made ++ [snapshot]) where
  mem := List.mem_append_right _ (List.mem_singleton_self snapshot)
  bound a ha := by
    rcases List.mem_append.mp ha with ha | ha
    · have := h.bound a ha
      omega
    · rw [List.mem_singleton.mp ha]
  increasing := by
    rw [List.pairwise_append]
    refine ⟨h.increasing, List.pairwise_singleton _ _, fun a ha b hb => ?_⟩
    rw [List.mem_singleton.mp hb]
    have := h.bound a ha
    omega
  final a ha hquiescing := by
    rcases List.mem_append.mp ha with ha | ha
    · rw [h.final a ha hquiescing] at hquiescing
      exact absurd hquiescing hstate
    · exact List.mem_singleton.mp ha

/-- A generation identifies a snapshot. -/
theorem ControllerInv.unique {current : ServiceStateSnapshot} {made : List ServiceStateSnapshot}
    (h : ControllerInv current made) : ∀ a ∈ made, ∀ b ∈ made,
      a.generation = b.generation → a = b := by
  have hnodup : (made.map (·.generation)).Nodup :=
    List.pairwise_map.mpr (h.increasing.imp fun hlt => Nat.ne_of_lt hlt)
  exact fun a ha b hb heq => List.inj_on_of_nodup_map hnodup ha hb heq

/-! ## The invariant -/

/-- A client that received nothing shows nothing; another one shows the newest
snapshot it received. -/
structure ClientInv (made : List ServiceStateSnapshot) (client : ServiceClient) : Prop where
  known : ∀ snapshot ∈ client.received, snapshot ∈ made
  fresh : client.received = [] → client.agent.service = (none, 0)
  newest : client.received ≠ [] →
    ∃ snapshot, Newest (·.generation) client.received snapshot ∧ Shows client.agent snapshot

/-- A connection sends snapshots the controller made. -/
structure ConnectionInv (made : List ServiceStateSnapshot) (connection : SseState) : Prop where
  sent : ControlsInv connection
  known : ∀ snapshot ∈ controls connection.out, snapshot ∈ made

structure ServiceInv (s : ServiceWorld) : Prop where
  controller : ControllerInv s.current s.made
  connections : ∀ i connection, s.connections i = some connection → ConnectionInv s.made connection
  responses : ∀ bootstrap ∈ s.responses, bootstrap.service ∈ s.made
  clients : ∀ j, ClientInv s.made (s.clients j)

theorem ClientInv.grow {made new : List ServiceStateSnapshot} {client : ServiceClient}
    (h : ClientInv made client) : ClientInv (made ++ new) client :=
  { h with known := fun snapshot hs => List.mem_append_left _ (h.known snapshot hs) }

theorem ConnectionInv.grow {made new : List ServiceStateSnapshot} {connection : SseState}
    (h : ConnectionInv made connection) : ConnectionInv (made ++ new) connection :=
  { h with known := fun snapshot hs => List.mem_append_left _ (h.known snapshot hs) }

theorem ServiceInv.set {s : ServiceWorld} (h : ServiceInv s) (next : ServiceState) :
    ServiceInv (s.set next) := by
  rcases set_cases s next with hsame | ⟨snapshot, hgeneration, hstate, heq⟩
  · rw [hsame]
    exact h
  · rw [heq]
    exact { controller := h.controller.grow hgeneration hstate
            connections := fun i connection hi => (h.connections i connection hi).grow
            responses := fun bootstrap hb => List.mem_append_left _ (h.responses bootstrap hb)
            clients := fun j => (h.clients j).grow }

theorem ConnectionInv.step {made : List ServiceStateSnapshot} {connection connection' : SseState}
    {l : SseLabel} (h : ConnectionInv made connection) (hread : ∀ snapshot ∈ l.snapshots, snapshot ∈ made)
    (hs : sseNext connection l = some connection') : ConnectionInv made connection' where
  sent := h.sent.step hs
  known := by
    rcases service_step hs with hquiet | ⟨control, hcontrol, hemits⟩
    · rw [hquiet.controls_eq]
      exact h.known
    · rw [hemits.controls_eq]
      intro snapshot hmem
      rcases List.mem_append.mp hmem with hmem | hmem
      · exact h.known snapshot hmem
      · rw [List.mem_singleton.mp hmem]
        exact hread control hcontrol

theorem ServiceInv.setConnection {s : ServiceWorld} (h : ServiceInv s) (i : Nat)
    {connection : SseState} (hc : ConnectionInv s.made connection) :
    ServiceInv (s.setConnection i connection) :=
  { h with
    connections := fun k other hk => by
      by_cases hki : k = i
      · subst hki
        rw [ServiceWorld.setConnection_self] at hk
        obtain rfl := Option.some.inj hk
        exact hc
      · rw [s.setConnection_of_ne hki] at hk
        exact h.connections k other hk }

theorem ServiceInv.setClient {s : ServiceWorld} (h : ServiceInv s) (j : Nat)
    {client : ServiceClient} (hc : ClientInv s.made client) : ServiceInv (s.setClient j client) :=
  { h with
    clients := fun k => by
      by_cases hkj : k = j
      · subst hkj
        rw [ServiceWorld.setClient_self]
        exact hc
      · rw [s.setClient_of_ne hkj]
        exact h.clients k }

theorem ClientInv.known_snoc {made : List ServiceStateSnapshot} {client : ServiceClient}
    (h : ClientInv made client) {snapshot : ServiceStateSnapshot} (hs : snapshot ∈ made) :
    ∀ r ∈ client.received ++ [snapshot], r ∈ made := by
  intro r hr
  rcases List.mem_append.mp hr with hr | hr
  · exact h.known r hr
  · rw [List.mem_singleton.mp hr]
    exact hs

/-- A bootstrap is accepted unless something newer was received. -/
theorem ClientInv.bootstrap {made : List ServiceStateSnapshot} {client : ServiceClient}
    (h : ClientInv made client) {bootstrap : BootstrapResponse} (hb : bootstrap.service ∈ made) :
    ClientInv made { agent := agentReducer client.agent (.bootstrapReceived bootstrap),
                     received := client.received ++ [bootstrap.service] } where
  known := h.known_snoc hb
  fresh hnil := by simp at hnil
  newest _ := by
    have hservice := installBootstrap_service client.agent bootstrap
    by_cases hnil : client.received = []
    · have hgeneration : client.agent.serviceGeneration = 0 := congrArg Prod.snd (h.fresh hnil)
      rw [hgeneration, if_pos (Nat.zero_le _)] at hservice
      refine ⟨bootstrap.service, ?_, hservice⟩
      rw [hnil]
      exact Newest.single _ _
    · obtain ⟨old, hnewest, hshows⟩ := h.newest hnil
      have hgeneration : client.agent.serviceGeneration = old.generation := congrArg Prod.snd hshows
      rw [hgeneration] at hservice
      split at hservice
      · next hle => exact ⟨bootstrap.service, hnewest.replace hle, hservice⟩
      · next hlt => exact ⟨old, hnewest.keep (by omega), hservice.trans hshows⟩

/-- A control is accepted if it is newer than everything received. -/
theorem ClientInv.control {made : List ServiceStateSnapshot} {client : ServiceClient}
    (h : ClientInv made client) (hne : client.received ≠ []) {control : ServiceStateSnapshot}
    (hc : control ∈ made) :
    ClientInv made
      { agent := agentReducer client.agent (.serviceReceived control.state control.generation),
        received := client.received ++ [control] } where
  known := h.known_snoc hc
  fresh hnil := by simp at hnil
  newest _ := by
    have hservice := serviceReceived_service client.agent control
    obtain ⟨old, hnewest, hshows⟩ := h.newest hne
    have hgeneration : client.agent.serviceGeneration = old.generation := congrArg Prod.snd hshows
    rw [hgeneration] at hservice
    split at hservice
    · next hle => exact ⟨old, hnewest.keep hle, hservice.trans hshows⟩
    · next hlt => exact ⟨control, hnewest.replace (by omega), hservice⟩

theorem serviceInv_initial (state : ServiceState) : ServiceInv (.initial state) where
  controller :=
    { mem := List.mem_singleton_self _
      bound := fun a ha => by rw [List.mem_singleton.mp ha]; rfl
      increasing := List.pairwise_singleton _ _
      final := fun a ha _ => List.mem_singleton.mp ha }
  connections i connection h := by cases h
  responses _ h := by cases h
  clients j :=
    { known := fun _ h => by cases h
      fresh := fun _ => rfl
      newest := fun h => absurd rfl h }

theorem serviceInv_step {s s' : ServiceWorld} {l : ServiceLabel} (h : ServiceInv s)
    (hs : serviceNext s l = some s') : ServiceInv s' := by
  cases l with
  | set next =>
    cases hs
    exact h.set next
  | connect i log published after =>
    simp only [serviceNext] at hs
    split at hs <;> cases hs
    exact h.setConnection i ⟨controlsInv_connect log published after, fun _ h => by cases h⟩
  | stream i l =>
    simp only [serviceNext] at hs
    split at hs
    · cases hs
    · next connection hconnection =>
      split at hs
      · next hread =>
        obtain ⟨connection', hstep, rfl⟩ := Option.map_eq_some_iff.mp hs
        exact h.setConnection i ((h.connections i connection hconnection).step hread hstep)
      · cases hs
  | respond repositories tasks latestEventId =>
    cases hs
    refine { h with responses := fun bootstrap hb => ?_ }
    rcases List.mem_append.mp hb with hb | hb
    · exact h.responses bootstrap hb
    · rw [List.mem_singleton.mp hb]
      exact h.controller.mem
  | receiveBootstrap j bootstrap =>
    simp only [serviceNext] at hs
    split at hs
    · next hb =>
      cases hs
      exact h.setClient j ((h.clients j).bootstrap (h.responses bootstrap hb))
    · cases hs
  | receiveControl j i control =>
    simp only [serviceNext] at hs
    split at hs
    · cases hs
    · next connection hconnection =>
      split at hs
      · next hc =>
        cases hs
        have hknown := (h.connections i connection hconnection).known control hc.1
        exact h.setClient j ((h.clients j).control hc.2 hknown)
      · cases hs
  | act j action =>
    simp only [serviceNext] at hs
    split at hs
    · cases hs
    · next haction =>
      cases hs
      have hservice := agentReducer_service (s.clients j).agent (Bool.eq_false_iff.mpr haction)
      refine h.setClient j ⟨(h.clients j).known, fun hnil => ?_, fun hne => ?_⟩
      · rw [hservice]
        exact (h.clients j).fresh hnil
      · obtain ⟨snapshot, hnewest, hshows⟩ := (h.clients j).newest hne
        exact ⟨snapshot, hnewest, hservice.trans hshows⟩

theorem serviceInv_inductive : serviceWorld.Inductive ServiceInv where
  init s hs := by
    obtain ⟨state, rfl⟩ := hs
    exact serviceInv_initial state
  step _ _ _ h hs := serviceInv_step h hs

/-- A step leaves a final state alone. -/
theorem quiescing_step {s s' : ServiceWorld} {l : ServiceLabel} (hs : serviceNext s l = some s')
    (h : s.current.state = .quiescing) : s'.current = s.current := by
  cases l with
  | set next =>
    cases hs
    rcases set_cases s next with hsame | ⟨snapshot, -, hstate, -⟩
    · rw [hsame]
    · exact absurd h hstate
  | connect | act | receiveBootstrap =>
    simp only [serviceNext] at hs
    split at hs <;> cases hs
    rfl
  | stream i l =>
    simp only [serviceNext] at hs
    split at hs
    · cases hs
    · split at hs
      · obtain ⟨connection', -, rfl⟩ := Option.map_eq_some_iff.mp hs
        rfl
      · cases hs
  | respond =>
    cases hs
    rfl
  | receiveControl =>
    simp only [serviceNext] at hs
    split at hs
    · cases hs
    · split at hs <;> cases hs
      rfl

theorem quiescing_run {s s' : ServiceWorld} {ls : List ServiceLabel}
    (hrun : serviceWorld.Run s ls s') (h : s.current.state = .quiescing) :
    s'.current = s.current := by
  induction hrun with
  | nil => rfl
  | cons hs _ ih =>
    have hstep := quiescing_step hs h
    rw [ih (by rw [hstep]; exact h), hstep]

/-! ## Convergence -/

/-- What is asked of the controller, the connections and the clients. -/
structure ServiceContract (s : ServiceWorld) : Prop where
  unique : ∀ a ∈ s.made, ∀ b ∈ s.made, a.generation = b.generation → a = b
  absorbing : (∃ snapshot ∈ s.made, snapshot.state = .quiescing) →
    ∀ {ls s'}, serviceWorld.Run s ls s' → s'.current = s.current ∧ s.current.state = .quiescing
  increasing : ∀ i connection, s.connections i = some connection →
    (controls connection.out).Pairwise fun a b => a.generation < b.generation
  newest : ∀ j, (s.clients j).received ≠ [] → ∃ snapshot ∈ (s.clients j).received,
    (s.clients j).agent.serviceState = some snapshot.state ∧
    (s.clients j).agent.serviceGeneration = snapshot.generation ∧
    ∀ other ∈ (s.clients j).received, other.generation ≤ snapshot.generation
  orderFree : ∀ i j, (s.clients i).received ≠ [] →
    (∀ snapshot, snapshot ∈ (s.clients i).received ↔ snapshot ∈ (s.clients j).received) →
    (s.clients i).agent.serviceState = (s.clients j).agent.serviceState ∧
    (s.clients i).agent.serviceGeneration = (s.clients j).agent.serviceGeneration

/-- **The service state converges.** In every reachable state generations
identify the snapshots, a final state stays, connections send increasing
generations, a client shows the newest snapshot it received, and two clients
that received the same snapshots show the same. -/
theorem service_converges {s : ServiceWorld} (h : serviceWorld.Reachable s) :
    ServiceContract s := by
  have hinv := serviceInv_inductive.reachable s h
  refine ⟨hinv.controller.unique, ?_, ?_, ?_, ?_⟩
  · rintro ⟨snapshot, hmem, hstate⟩ ls s' hrun
    have hcurrent : s.current.state = .quiescing := by
      rw [← hinv.controller.final snapshot hmem hstate]
      exact hstate
    exact ⟨quiescing_run hrun hcurrent, hcurrent⟩
  · intro i connection hi
    exact (hinv.connections i connection hi).sent.increasing
  · intro j hne
    obtain ⟨snapshot, hnewest, hshows⟩ := (hinv.clients j).newest hne
    exact ⟨snapshot, hnewest.mem, congrArg Prod.fst hshows, congrArg Prod.snd hshows, hnewest.le⟩
  · intro i j hne hsame
    obtain ⟨a, ha, hshowsA⟩ := (hinv.clients i).newest hne
    have hne' : (s.clients j).received ≠ [] := List.ne_nil_of_mem ((hsame a).mp ha.mem)
    obtain ⟨b, hb, hshowsB⟩ := (hinv.clients j).newest hne'
    have hab : a = b := ha.eq_of_same hb hsame fun x hx y hy =>
      hinv.controller.unique x ((hinv.clients i).known x hx) y ((hinv.clients i).known y hy)
    rw [hab] at hshowsA
    have hservice := hshowsA.trans hshowsB.symm
    exact ⟨congrArg Prod.fst hservice, congrArg Prod.snd hservice⟩

/-- A client bootstraps, the service degrades, a connection that started before
sends both states, and the client receives the newer one first. -/
def sampleService : List ServiceLabel :=
  [.respond [] [] 0, .receiveBootstrap 0 ⟨[], [], 0, .ready, 0⟩, .connect 7 [] 0 0,
    .stream 7 (.serviceState (some ⟨.ready, 0⟩) true), .set .storeDegraded,
    .stream 7 (.service [⟨.storeDegraded, 1⟩] false true), .receiveControl 0 7 ⟨.storeDegraded, 1⟩,
    .receiveControl 0 7 ⟨.ready, 0⟩]

theorem service_converges_sample :
    ∃ s, serviceWorld.Reachable s ∧ (s.clients 0).agent.serviceState = some .storeDegraded ∧
      ServiceContract s := by
  have hrun : (LTS.exec serviceNext (.initial .ready) sampleService).map
      (fun s => (s.clients 0).agent.serviceState) = some (some .storeDegraded) := by decide +kernel
  obtain ⟨s, hs, hstate⟩ := Option.map_eq_some_iff.1 hrun
  have hr : serviceWorld.Reachable s := LTS.reachable_of_exec ⟨.ready, rfl⟩ hs
  exact ⟨s, hr, hstate, service_converges hr⟩

end CodingAgent.L5.Web
