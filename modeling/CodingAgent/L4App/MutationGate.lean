import CodingAgent.Core.Lts
import CodingAgent.L1Domain.ServiceState

/-!
# The mutation gate (`coding-agent-app/src/server.rs:278-398`)

Any number of calls of the gate from any threads, one critical section or one
access to another lock a step: `enter_data_mutation`, `prepare_quit`,
`begin_quiescing`, `wait_for_idle` and the drop of a guard, between which
anybody may set the service state, which has a lock of its own. A guard is the
call it was issued to. A waiter registers with `enable` before it looks at the
count; `notify_waiters` wakes everyone registered.

* `GateInv.advance`: one step of a call, one case for each place.
* `gateInv_inductive`: the count is that of the live guards, one call closed the
  gate, and no waiter sleeps unwoken at zero.
-/
namespace CodingAgent.L4.App
open CodingAgent.L1.Domain

inductive GateCall where
  | enterDataMutation
  | prepareQuit
  | beginQuiescing
  | waitForIdle
  deriving DecidableEq, Repr

inductive GateError where
  | appShuttingDown
  | storeDegraded
  deriving DecidableEq, Repr

inductive GateResult where
  | refused (error : GateError)
  | dropped
  | prepared
  | quiesced (first : Bool)
  /-- of `wait_for_idle`; whether the gate was closed when it looked -/
  | idle (closed : Bool)
  /-- the future of `wait_for_idle` was dropped -/
  | abandoned
  | panicked
  deriving DecidableEq, Repr

/-- Where a call is. -/
inductive GatePc where
  | start (call : GateCall)
  /-- in `enter_data_mutation` with the lock, the gate being open -/
  | enterLocked
  /-- there, having read the service state -/
  | enterRead (seen : ServiceStateSnapshot)
  /-- the guard is live -/
  | guarded (seen : ServiceStateSnapshot)
  /-- in the drop of the guard with the lock, the count being lowered -/
  | dropping
  /-- in `prepare_quit` with the lock, the gate being open -/
  | prepareLocked
  /-- in `begin_quiescing` with the lock, `closed` being set -/
  | quiesceClosed
  /-- there, the service state being set -/
  | quiesceSet
  /-- in `wait_for_idle`, registered, before the look at the count -/
  | enabled (notified : Bool)
  /-- in `notified.await` -/
  | asleep (notified : Bool)
  /-- the look found no guard; the call has not returned yet -/
  | idle (closed : Bool)
  | returned (result : GateResult)
  deriving DecidableEq, Repr

structure GateState where
  service : ServiceStateSnapshot
  closed : Bool
  active : Nat
  /-- the call that holds the lock of the lifecycle -/
  holder : Option Nat
  calls : List GatePc
  deriving DecidableEq, Repr

inductive GateLabel where
  | call (call : GateCall)
  | advance (i : Nat)
  | abandon (i : Nat)
  | setService (next : ServiceState)
  deriving DecidableEq, Repr

/-- What `notify_waiters` does to a call. -/
def GatePc.notify : GatePc → GatePc
  | .enabled _ => .enabled true
  | .asleep _ => .asleep true
  | pc => pc

namespace GateState

def put (s : GateState) (i : Nat) (pc : GatePc) : GateState :=
  { s with calls := s.calls.set i pc }

/-- `idle.notify_waiters()` -/
def notifyWaiters (s : GateState) : GateState := { s with calls := s.calls.map .notify }

def lock (s : GateState) (i : Nat) : GateState := { s with holder := some i }

def unlock (s : GateState) : GateState := { s with holder := none }

/-- `if lifecycle.active == 0 { idle.notify_waiters(); }` -/
def notifyIfIdle (s : GateState) : GateState := if s.active = 0 then s.notifyWaiters else s

/-- The count is a `usize`. -/
def countLimit : Nat := 2 ^ 64

/-- mirrors crates/coding-agent-app/src/server.rs:310-331 -/
def enterDataMutation (s : GateState) (i : Nat) (seen : ServiceStateSnapshot) : GateState :=
  match seen.state with
  | .ready =>
    if s.active + 1 < countLimit then
      { s with active := s.active + 1 }.unlock.put i (.guarded seen)
    else s.unlock.put i (.returned .panicked)
  | .storeDegraded => s.unlock.put i (.returned (.refused .storeDegraded))
  | .quiescing => s.unlock.put i (.returned (.refused .appShuttingDown))

/-- The next step of a call; the steps that take the lock need it free. -/
def advance (s : GateState) (i : Nat) : GatePc → Option GateState
  | .start .enterDataMutation =>
    if s.holder ≠ none then none
    else if s.closed then some (s.put i (.returned (.refused .appShuttingDown)))
    else some ((s.lock i).put i .enterLocked)
  | .enterLocked => some (s.put i (.enterRead s.service))
  | .enterRead seen => some (s.enterDataMutation i seen)
  -- mirrors crates/coding-agent-app/src/server.rs:383-398
  | .guarded _ =>
    if s.holder ≠ none then none
    else some (({ s with active := s.active - 1 }.lock i).put i .dropping)
  | .dropping => some (s.unlock.put i (.returned .dropped)).notifyIfIdle
  -- mirrors crates/coding-agent-app/src/server.rs:333-344
  | .start .prepareQuit =>
    if s.holder ≠ none then none
    else if s.closed then some (s.put i (.returned (.refused .appShuttingDown)))
    else some ((s.lock i).put i .prepareLocked)
  | .prepareLocked =>
    some (s.unlock.put i (.returned
      (if s.service.state = .quiescing then .refused .appShuttingDown else .prepared)))
  -- mirrors crates/coding-agent-app/src/server.rs:365-380
  | .start .beginQuiescing =>
    if s.holder ≠ none then none
    else if s.closed then some (s.put i (.returned (.quiesced false)))
    else some (({ s with closed := true }.lock i).put i .quiesceClosed)
  | .quiesceClosed => some ({ s with service := s.service.after .quiescing }.put i .quiesceSet)
  | .quiesceSet => some (s.unlock.put i (.returned (.quiesced true))).notifyIfIdle
  -- mirrors crates/coding-agent-app/src/server.rs:346-363
  | .start .waitForIdle => some (s.put i (.enabled false))
  | .enabled notified =>
    if s.holder ≠ none then none
    else some (s.put i (if s.active = 0 then .idle s.closed else .asleep notified))
  | .asleep notified => if notified then some (s.put i (.enabled false)) else none
  | .idle closed => some (s.put i (.returned (.idle closed)))
  | .returned _ => none

end GateState

def gateNext (s : GateState) : GateLabel → Option GateState
  | .call call => some { s with calls := s.calls ++ [.start call] }
  | .advance i => s.calls[i]?.bind (s.advance i)
  | .abandon i =>
    match s.calls[i]? with
    | some (.asleep _) => some (s.put i (.returned .abandoned))
    | _ => none
  | .setService next => some { s with service := s.service.after next }

/-- `MutationGate::new` -/
def GateState.new (service : ServiceStateSnapshot) : GateState :=
  { service, closed := false, active := 0, holder := none, calls := [] }

def mutationGate : LTS GateState GateLabel :=
  LTS.ofFn (fun s => ∃ service, s = .new service) gateNext

/-! ## The invariant -/

/-- The call owns a live guard. -/
def GatePc.isGuarded : GatePc → Bool
  | .guarded _ => true
  | _ => false

/-- The call has closed the gate. -/
def GatePc.isCloser : GatePc → Bool
  | .quiesceClosed | .quiesceSet | .returned (.quiesced true) => true
  | _ => false

/-- What a call knows of the gate. -/
def Knows (s : GateState) (i : Nat) : GatePc → Prop
  | .enterLocked | .enterRead _ => s.holder = some i ∧ s.closed = false
  | .guarded seen => seen.state = .ready
  | .dropping | .prepareLocked => s.holder = some i
  | .quiesceClosed | .quiesceSet => s.holder = some i ∧ s.closed = true
  | .idle true | .returned (.idle true) => s.closed = true ∧ s.active = 0
  | _ => True

structure GateCore (s : GateState) : Prop where
  count : s.active = s.calls.countP GatePc.isGuarded
  closers : s.calls.countP GatePc.isCloser = if s.closed then 1 else 0
  knows : ∀ i pc, s.calls[i]? = some pc → Knows s i pc

/-- No waiter sleeps unwoken at zero, unless the call that lowered the count is
about to wake it. -/
def Awake (s : GateState) : Prop :=
  ∀ i : Nat, s.calls[i]? = some (.asleep false) →
    0 < s.active ∨ ∃ k : Nat, s.calls[k]? = some .dropping

structure GateInv (s : GateState) : Prop where
  core : GateCore s
  awake : Awake s

theorem countP_set_add (p : GatePc → Bool) {calls : List GatePc} {i : Nat} {pc : GatePc}
    (h : calls[i]? = some pc) (pc' : GatePc) :
    (calls.set i pc').countP p + (if p pc then 1 else 0) =
      calls.countP p + (if p pc' then 1 else 0) := by
  obtain ⟨hlt, hget⟩ := List.getElem?_eq_some_iff.mp h
  have hle := List.boole_getElem_le_countP (p := p) hlt
  rw [List.countP_set hlt]
  rw [hget] at hle ⊢
  omega

/-- What the step of a call does to what the others know. -/
structure Frame (s s' : GateState) (i : Nat) : Prop where
  holder : s'.holder = s.holder ∨ s.holder = none ∨ s.holder = some i
  closed : s'.closed = s.closed ∨ s.holder = none ∧ s'.closed = true
  active : s'.active ≤ s.active ∨ s.closed = false

theorem Knows.frame {s s' : GateState} {i j : Nat} {pc : GatePc} (h : Knows s j pc) (hne : j ≠ i)
    (f : Frame s s' i) : Knows s' j pc := by
  have hholder : s.holder = some j → s'.holder = some j := by
    intro hj
    rcases f.holder with heq | hnone | hi
    · rw [heq, hj]
    · rw [hj] at hnone
      cases hnone
    · rw [hj] at hi
      exact absurd (Option.some.inj hi) hne
  have hopen : s.holder = some j → s.closed = false → s'.closed = false := by
    intro hj hc
    rcases f.closed with heq | ⟨hnone, -⟩
    · rw [heq, hc]
    · rw [hj] at hnone
      cases hnone
  have hclosed : s.closed = true → s'.closed = true := by
    intro hc
    rcases f.closed with heq | ⟨-, heq⟩
    · rw [heq, hc]
    · exact heq
  have hidle : s.closed = true ∧ s.active = 0 → s'.closed = true ∧ s'.active = 0 := by
    rintro ⟨hc, hzero⟩
    refine ⟨hclosed hc, ?_⟩
    rcases f.active with hle | hopen
    · omega
    · rw [hc] at hopen
      cases hopen
  cases pc with
  | enterLocked | enterRead => exact ⟨hholder h.1, hopen h.1 h.2⟩
  | dropping | prepareLocked => exact hholder h
  | quiesceClosed | quiesceSet => exact ⟨hholder h.1, hclosed h.2⟩
  | guarded seen => exact h
  | start | enabled | asleep => trivial
  | idle closed =>
    cases closed
    · trivial
    · exact hidle h
  | returned result =>
    cases result with
    | idle closed =>
      cases closed
      · trivial
      · exact hidle h
    | refused | dropped | prepared | quiesced | abandoned | panicked => trivial

/-- One call moves. -/
theorem GateCore.move {s s' : GateState} (h : GateCore s) {i : Nat} {pc pc' : GatePc}
    (hi : s.calls[i]? = some pc) (hcalls : s'.calls = s.calls.set i pc') (f : Frame s s' i)
    (hcount : s'.active + (if pc.isGuarded then 1 else 0) =
      s.active + (if pc'.isGuarded then 1 else 0))
    (hclosers : (if s'.closed then 1 else 0) + (if pc.isCloser then 1 else 0) =
      (if s.closed then 1 else 0) + (if pc'.isCloser then 1 else 0))
    (hknows : Knows s' i pc') : GateCore s' where
  count := by
    have hset := countP_set_add GatePc.isGuarded hi pc'
    have hold := h.count
    rw [hcalls]
    omega
  closers := by
    have hset := countP_set_add GatePc.isCloser hi pc'
    have hold := h.closers
    rw [hcalls]
    omega
  knows j other hj := by
    rw [hcalls, List.getElem?_set] at hj
    split at hj
    · next hij =>
      subst hij
      split at hj
      · obtain rfl := Option.some.inj hj
        exact hknows
      · cases hj
    · next hij => exact (h.knows j other hj).frame (fun heq => hij heq.symm) f

theorem notify_isGuarded (pc : GatePc) : pc.notify.isGuarded = pc.isGuarded := by
  cases pc <;> rfl

theorem notify_isCloser (pc : GatePc) : pc.notify.isCloser = pc.isCloser := by
  cases pc <;> rfl

theorem GateCore.notifyWaiters {s : GateState} (h : GateCore s) : GateCore s.notifyWaiters where
  count := by
    rw [GateState.notifyWaiters, List.countP_map]
    have hcomp : (GatePc.isGuarded ∘ GatePc.notify) = GatePc.isGuarded := funext notify_isGuarded
    rw [hcomp]
    exact h.count
  closers := by
    rw [GateState.notifyWaiters, List.countP_map]
    have hcomp : (GatePc.isCloser ∘ GatePc.notify) = GatePc.isCloser := funext notify_isCloser
    rw [hcomp]
    exact h.closers
  knows i pc hi := by
    simp only [GateState.notifyWaiters, List.getElem?_map, Option.map_eq_some_iff] at hi
    obtain ⟨old, hold, rfl⟩ := hi
    have hknows := h.knows i old hold
    cases old with
    | enabled | asleep => trivial
    | start | enterLocked | enterRead | guarded | dropping | prepareLocked | quiesceClosed
    | quiesceSet | idle | returned => exact hknows

/-- Everybody who sleeps is woken. -/
theorem awake_notifyWaiters (s : GateState) : Awake s.notifyWaiters := by
  intro i hi
  simp only [GateState.notifyWaiters, List.getElem?_map, Option.map_eq_some_iff] at hi
  obtain ⟨old, -, heq⟩ := hi
  cases old <;> cases heq

theorem GateCore.notifyIfIdle {s : GateState} (h : GateCore s) : GateCore s.notifyIfIdle := by
  unfold GateState.notifyIfIdle
  split
  · exact h.notifyWaiters
  · exact h

theorem awake_notifyIfIdle (s : GateState) : Awake s.notifyIfIdle := by
  unfold GateState.notifyIfIdle
  split
  · exact awake_notifyWaiters s
  · next hpos => exact fun i _ => Or.inl (Nat.pos_of_ne_zero hpos)

/-- A call that is not about to wake anybody moves. -/
theorem Awake.move {s s' : GateState} (h : Awake s) {i : Nat} {pc pc' : GatePc}
    (hi : s.calls[i]? = some pc) (hcalls : s'.calls = s.calls.set i pc') (hpc : pc ≠ .dropping)
    (hactive : s.active ≤ s'.active ∨ pc' = .dropping)
    (hsleep : pc' = .asleep false → 0 < s'.active) : Awake s' := by
  have hlt : i < s.calls.length := (List.getElem?_eq_some_iff.mp hi).1
  intro j hj
  rw [hcalls, List.getElem?_set] at hj
  rcases hactive with hle | hdropping
  · split at hj
    · exact Or.inl (hsleep (Option.some.inj hj))
    · rcases h j hj with hpos | ⟨k, hk⟩
      · exact Or.inl (Nat.lt_of_lt_of_le hpos hle)
      · have hki : i ≠ k := by
          rintro rfl
          rw [hi] at hk
          exact hpc (Option.some.inj hk)
        refine Or.inr ⟨k, ?_⟩
        rw [hcalls, List.getElem?_set_ne hki]
        exact hk
  · refine Or.inr ⟨i, ?_⟩
    rw [hcalls, List.getElem?_set_self hlt, hdropping]

section
variable {s : GateState} {i : Nat}

/-- A step that leaves the count alone. -/
theorem GateInv.move (h : GateInv s) {s' : GateState} {pc pc' : GatePc}
    (hi : s.calls[i]? = some pc) (hcalls : s'.calls = s.calls.set i pc') (f : Frame s s' i)
    (hactive : s'.active = s.active) (hguard : pc.isGuarded = pc'.isGuarded)
    (hclosers : (if s'.closed then 1 else 0) + (if pc.isCloser then 1 else 0) =
      (if s.closed then 1 else 0) + (if pc'.isCloser then 1 else 0))
    (hknows : Knows s' i pc') (hpc : pc ≠ .dropping) (hsleep : pc' = .asleep false → 0 < s.active) :
    GateInv s' where
  core := h.core.move hi hcalls f (by rw [hactive, hguard]) hclosers hknows
  awake := h.awake.move hi hcalls hpc (Or.inl (Nat.le_of_eq hactive.symm)) (by rwa [hactive])

/-- A call ends or goes on without the lock. -/
theorem GateInv.put (h : GateInv s) {pc pc' : GatePc} (hi : s.calls[i]? = some pc)
    (hguard : pc.isGuarded = pc'.isGuarded) (hcloser : pc.isCloser = pc'.isCloser)
    (hknows : Knows (s.put i pc') i pc') (hpc : pc ≠ .dropping)
    (hsleep : pc' = .asleep false → 0 < s.active) : GateInv (s.put i pc') :=
  h.move hi rfl ⟨Or.inl rfl, Or.inl rfl, Or.inl (Nat.le_refl _)⟩ rfl hguard (by rw [hcloser]; rfl)
    hknows hpc hsleep

/-- A call takes the lock. -/
theorem GateInv.lock (h : GateInv s) (hfree : s.holder = none) {pc pc' : GatePc}
    (hi : s.calls[i]? = some pc) (hguard : pc.isGuarded = pc'.isGuarded)
    (hcloser : pc.isCloser = pc'.isCloser) (hknows : Knows ((s.lock i).put i pc') i pc')
    (hpc : pc ≠ .dropping) (hsleep : pc' ≠ .asleep false) : GateInv ((s.lock i).put i pc') :=
  h.move hi rfl ⟨Or.inr (Or.inl hfree), Or.inl rfl, Or.inl (Nat.le_refl _)⟩ rfl hguard
    (by rw [hcloser]; rfl) hknows hpc (fun heq => absurd heq hsleep)

/-- A call ends and gives the lock back. -/
theorem GateInv.unlock (h : GateInv s) (hheld : s.holder = some i) {pc pc' : GatePc}
    (hi : s.calls[i]? = some pc) (hguard : pc.isGuarded = pc'.isGuarded)
    (hcloser : pc.isCloser = pc'.isCloser) (hknows : Knows (s.unlock.put i pc') i pc')
    (hpc : pc ≠ .dropping) (hsleep : pc' ≠ .asleep false) : GateInv (s.unlock.put i pc') :=
  h.move hi rfl ⟨Or.inr (Or.inr hheld), Or.inl rfl, Or.inl (Nat.le_refl _)⟩ rfl hguard
    (by rw [hcloser]; rfl) hknows hpc (fun heq => absurd heq hsleep)

/-- The last step of `enter_data_mutation`. -/
theorem GateInv.enterDataMutation (h : GateInv s) {seen : ServiceStateSnapshot}
    (hi : s.calls[i]? = some (.enterRead seen)) : GateInv (s.enterDataMutation i seen) := by
  obtain ⟨hheld, hopen⟩ := h.core.knows i _ hi
  unfold GateState.enterDataMutation
  split
  · next hready =>
    split
    · constructor
      · exact h.core.move hi rfl ⟨Or.inr (Or.inr hheld), Or.inl rfl, Or.inr hopen⟩ rfl rfl hready
      · exact h.awake.move hi rfl (fun h => by cases h) (Or.inl (Nat.le_succ _))
          (fun h => by cases h)
    · exact h.unlock hheld hi rfl rfl trivial (fun h => by cases h) (fun h => by cases h)
  · exact h.unlock hheld hi rfl rfl trivial (fun h => by cases h) (fun h => by cases h)
  · exact h.unlock hheld hi rfl rfl trivial (fun h => by cases h) (fun h => by cases h)

/-- A live guard is counted. -/
theorem GateCore.pos (h : GateCore s) {seen : ServiceStateSnapshot}
    (hi : s.calls[i]? = some (.guarded seen)) : 0 < s.active := by
  rw [h.count, List.countP_pos_iff]
  exact ⟨_, List.mem_of_getElem? hi, rfl⟩

/-- The drop of a guard lowers the count. -/
theorem GateInv.drop (h : GateInv s) (hfree : s.holder = none) {seen : ServiceStateSnapshot}
    (hi : s.calls[i]? = some (.guarded seen)) :
    GateInv (({ s with active := s.active - 1 }.lock i).put i .dropping) := by
  have hpos := h.core.pos hi
  constructor
  · refine h.core.move hi rfl ⟨Or.inr (Or.inl hfree), Or.inl rfl, Or.inl (Nat.sub_le _ _)⟩ ?_ rfl rfl
    show s.active - 1 + 1 = s.active + 0
    omega
  · exact h.awake.move hi rfl (fun h => by cases h) (Or.inr rfl) (fun h => by cases h)

/-- A call wakes the waiters if there is no guard, gives the lock back and ends. -/
theorem GateInv.finish (h : GateInv s) (hheld : s.holder = some i) {pc : GatePc}
    {result : GateResult} (hi : s.calls[i]? = some pc) (hguard : pc.isGuarded = false)
    (hcloser : pc.isCloser = (GatePc.returned result).isCloser)
    (hknows : Knows (s.unlock.put i (.returned result)) i (.returned result)) :
    GateInv (s.unlock.put i (.returned result)).notifyIfIdle where
  core := by
    apply GateCore.notifyIfIdle
    refine h.core.move hi rfl ⟨Or.inr (Or.inr hheld), Or.inl rfl, Or.inl (Nat.le_refl _)⟩ ?_ ?_ hknows
    · rw [hguard]
      rfl
    · rw [hcloser]
      rfl
  awake := awake_notifyIfIdle _

/-- **One step of a call keeps the invariant**, one case for each place. -/
theorem GateInv.advance (h : GateInv s) {pc : GatePc} (hi : s.calls[i]? = some pc) {s' : GateState}
    (hs : s.advance i pc = some s') : GateInv s' := by
  have hknows := h.core.knows i pc hi
  cases pc with
  | start call =>
    cases call with
    | enterDataMutation | prepareQuit =>
      simp only [GateState.advance] at hs
      split at hs
      · cases hs
      · next hfree =>
        have hfree := not_not.mp hfree
        split at hs
        · cases hs
          exact h.put hi rfl rfl trivial (fun h => by cases h) (fun h => by cases h)
        · next hopen =>
          cases hs
          refine h.lock hfree hi rfl rfl ?_ (fun h => by cases h) (fun h => by cases h)
          first | exact ⟨rfl, Bool.eq_false_iff.mpr hopen⟩ | exact rfl
    | beginQuiescing =>
      simp only [GateState.advance] at hs
      split at hs
      · cases hs
      · next hfree =>
        have hfree := not_not.mp hfree
        split at hs
        · cases hs
          exact h.put hi rfl rfl trivial (fun h => by cases h) (fun h => by cases h)
        · next hopen =>
          cases hs
          have hopen := Bool.eq_false_iff.mpr hopen
          refine h.move hi rfl ⟨Or.inr (Or.inl hfree), Or.inr ⟨hfree, rfl⟩, Or.inl (Nat.le_refl _)⟩
            rfl rfl ?_ ⟨rfl, rfl⟩ (fun h => by cases h) (fun h => by cases h)
          rw [hopen]
          rfl
    | waitForIdle =>
      cases hs
      exact h.put hi rfl rfl trivial (fun h => by cases h) (fun h => by cases h)
  | enterLocked =>
    cases hs
    exact h.put hi rfl rfl hknows (fun h => by cases h) (fun h => by cases h)
  | enterRead seen =>
    cases hs
    exact h.enterDataMutation hi
  | guarded seen =>
    simp only [GateState.advance] at hs
    split at hs
    · cases hs
    · next hfree =>
      cases hs
      exact h.drop (not_not.mp hfree) hi
  | dropping =>
    cases hs
    exact h.finish hknows hi rfl rfl trivial
  | prepareLocked =>
    cases hs
    refine h.unlock hknows hi ?_ ?_ ?_ (fun h => by cases h) (fun h => by cases h)
    · rfl
    · split <;> rfl
    · split <;> trivial
  | quiesceClosed =>
    cases hs
    exact h.move hi rfl ⟨Or.inl rfl, Or.inl rfl, Or.inl (Nat.le_refl _)⟩ rfl rfl rfl hknows
      (fun h => by cases h) (fun h => by cases h)
  | quiesceSet =>
    cases hs
    exact h.finish hknows.1 hi rfl rfl trivial
  | enabled notified =>
    simp only [GateState.advance] at hs
    split at hs
    · cases hs
    · cases hs
      by_cases hzero : s.active = 0
      · rw [if_pos hzero]
        refine h.put hi rfl rfl ?_ (fun h => by cases h) (fun h => by cases h)
        cases hclosed : s.closed
        · trivial
        · exact ⟨hclosed, hzero⟩
      · rw [if_neg hzero]
        exact h.put hi rfl rfl trivial (fun h => by cases h) (fun _ => Nat.pos_of_ne_zero hzero)
  | asleep notified =>
    simp only [GateState.advance] at hs
    split at hs
    · cases hs
      exact h.put hi rfl rfl trivial (fun h => by cases h) (fun h => by cases h)
    · cases hs
  | idle closed =>
    cases hs
    refine h.put hi rfl rfl ?_ (fun h => by cases h) (fun h => by cases h)
    cases closed
    · trivial
    · exact hknows
  | returned result => cases hs

end

theorem gateInv_new (service : ServiceStateSnapshot) : GateInv (.new service) where
  core := ⟨rfl, rfl, fun i pc hi => by cases hi⟩
  awake i hi := by cases hi

theorem gateInv_step {s s' : GateState} {l : GateLabel} (h : GateInv s)
    (hs : gateNext s l = some s') : GateInv s' := by
  cases l with
  | call call =>
    cases hs
    refine ⟨⟨?_, ?_, fun i pc hi => ?_⟩, fun i hi => ?_⟩
    · rw [List.countP_append]
      exact h.core.count
    · rw [List.countP_append]
      exact h.core.closers
    · rw [List.getElem?_append] at hi
      split at hi
      · exact h.core.knows i pc hi
      · obtain rfl := List.mem_singleton.mp (List.mem_of_getElem? hi)
        trivial
    · rw [List.getElem?_append] at hi
      split at hi
      · rcases h.awake i hi with hpos | ⟨k, hk⟩
        · exact Or.inl hpos
        · refine Or.inr ⟨k, ?_⟩
          rw [List.getElem?_append_left (List.getElem?_eq_some_iff.mp hk).1]
          exact hk
      · cases List.mem_singleton.mp (List.mem_of_getElem? hi)
  | advance i =>
    obtain ⟨pc, hi, hs⟩ := Option.bind_eq_some_iff.mp hs
    exact h.advance hi hs
  | abandon i =>
    simp only [gateNext] at hs
    split at hs
    · next hi =>
      cases hs
      exact h.put hi rfl rfl trivial (fun h => by cases h) (fun h => by cases h)
    · cases hs
  | setService next =>
    cases hs
    exact ⟨⟨h.core.count, h.core.closers, fun i pc hi => (h.core.knows i pc hi).frame
      (Nat.ne_of_lt (Nat.lt_succ_self i)) ⟨Or.inl rfl, Or.inl rfl, Or.inl (Nat.le_refl _)⟩⟩, h.awake⟩

theorem gateInv_inductive : mutationGate.Inductive GateInv where
  init s hs := by
    obtain ⟨service, rfl⟩ := hs
    exact gateInv_new service
  step _ _ _ h hs := gateInv_step h hs

end CodingAgent.L4.App
