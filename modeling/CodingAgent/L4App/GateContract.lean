import CodingAgent.L4App.MutationGate

/-!
# The contract of the mutation gate

A call that has read the service state may issue its guard after the state
changed, and a `wait_for_idle` that looked before the gate closed may return
after it did (`gate_races`). The contract says what holds for every look: who
can still get a guard, and what a look at the closed gate means.

* `call_step`: after a step a call is where it was, was woken, moved, or is new.
* `guarded_run`, `guarded_unready`, `looksLate_run`: what whole runs preserve.
* `gate_contract`: the contract of every reachable state.
-/
namespace CodingAgent.L4.App
open CodingAgent.L1.Domain

/-! ## What a step does to a call -/

/-- The places a call can go to from its place. -/
def Moves (s : GateState) : GatePc → GatePc → Prop
  | .start .enterDataMutation, pc' => pc' = .returned (.refused .appShuttingDown) ∨ pc' = .enterLocked
  | .start .prepareQuit, pc' => pc' = .returned (.refused .appShuttingDown) ∨ pc' = .prepareLocked
  | .start .beginQuiescing, pc' =>
    s.closed = true ∧ pc' = .returned (.quiesced false) ∨ s.closed = false ∧ pc' = .quiesceClosed
  | .start .waitForIdle, pc' => pc' = .enabled false
  | .enterLocked, pc' => pc' = .enterRead s.service
  | .enterRead seen, pc' => pc' = .guarded seen ∨ pc' = .returned .panicked ∨
    ∃ error, pc' = .returned (.refused error)
  | .guarded _, pc' => pc' = .dropping
  | .dropping, pc' => pc' = .returned .dropped
  | .prepareLocked, pc' =>
    pc' = .returned (.refused .appShuttingDown) ∨ pc' = .returned .prepared
  | .quiesceClosed, pc' => pc' = .quiesceSet
  | .quiesceSet, pc' => pc' = .returned (.quiesced true)
  | .enabled notified, pc' => pc' = .idle s.closed ∨ pc' = .asleep notified
  | .asleep _, pc' => pc' = .enabled false ∨ pc' = .returned .abandoned
  | .idle closed, pc' => pc' = .returned (.idle closed)
  | .returned _, _ => False

theorem notifyIfIdle_calls (s : GateState) :
    s.notifyIfIdle.calls = s.calls ∨ s.notifyIfIdle.calls = s.calls.map .notify := by
  unfold GateState.notifyIfIdle
  split
  · exact Or.inr rfl
  · exact Or.inl rfl

@[simp] theorem notifyIfIdle_closed (s : GateState) : s.notifyIfIdle.closed = s.closed := by
  unfold GateState.notifyIfIdle
  split <;> rfl

theorem advance_moves {s s' : GateState} {i : Nat} {pc : GatePc}
    (hs : s.advance i pc = some s') : ∃ pc', Moves s pc pc' ∧
      (s'.calls = s.calls.set i pc' ∨ s'.calls = (s.calls.set i pc').map .notify) := by
  cases pc with
  | start call =>
    cases call with
    | enterDataMutation | prepareQuit =>
      simp only [GateState.advance] at hs
      split at hs
      · cases hs
      · split at hs
        · cases hs
          exact ⟨_, Or.inl rfl, Or.inl rfl⟩
        · cases hs
          exact ⟨_, Or.inr rfl, Or.inl rfl⟩
    | beginQuiescing =>
      simp only [GateState.advance] at hs
      split at hs
      · cases hs
      · split at hs
        · next hclosed =>
          cases hs
          exact ⟨_, Or.inl ⟨hclosed, rfl⟩, Or.inl rfl⟩
        · next hopen =>
          cases hs
          exact ⟨_, Or.inr ⟨Bool.eq_false_iff.mpr hopen, rfl⟩, Or.inl rfl⟩
    | waitForIdle =>
      cases hs
      exact ⟨_, rfl, Or.inl rfl⟩
  | enterLocked | quiesceClosed | idle =>
    cases hs
    exact ⟨_, rfl, Or.inl rfl⟩
  | enterRead seen =>
    cases hs
    unfold GateState.enterDataMutation
    split
    · split
      · exact ⟨_, Or.inl rfl, Or.inl rfl⟩
      · exact ⟨_, Or.inr (Or.inl rfl), Or.inl rfl⟩
    · exact ⟨_, Or.inr (Or.inr ⟨_, rfl⟩), Or.inl rfl⟩
    · exact ⟨_, Or.inr (Or.inr ⟨_, rfl⟩), Or.inl rfl⟩
  | guarded seen =>
    simp only [GateState.advance] at hs
    split at hs <;> cases hs
    exact ⟨_, rfl, Or.inl rfl⟩
  | dropping | quiesceSet =>
    cases hs
    exact ⟨_, rfl, notifyIfIdle_calls _⟩
  | prepareLocked =>
    cases hs
    by_cases h : s.service.state = .quiescing
    · rw [if_pos h]
      exact ⟨_, Or.inl rfl, Or.inl rfl⟩
    · rw [if_neg h]
      exact ⟨_, Or.inr rfl, Or.inl rfl⟩
  | enabled notified =>
    simp only [GateState.advance] at hs
    split at hs
    · cases hs
    · cases hs
      by_cases hzero : s.active = 0
      · rw [if_pos hzero]
        exact ⟨_, Or.inl rfl, Or.inl rfl⟩
      · rw [if_neg hzero]
        exact ⟨_, Or.inr rfl, Or.inl rfl⟩
  | asleep notified =>
    simp only [GateState.advance] at hs
    split at hs <;> cases hs
    exact ⟨_, Or.inl rfl, Or.inl rfl⟩
  | returned result => cases hs

/-- After a step a call is where it was, was woken, moved, or is new. -/
theorem call_step {s s' : GateState} {l : GateLabel} (hs : gateNext s l = some s') {j : Nat}
    {pc' : GatePc} (hj : s'.calls[j]? = some pc') :
    (∃ pc, s.calls[j]? = some pc ∧
      (pc' = pc ∨ pc' = pc.notify ∨ Moves s pc pc' ∨ ∃ moved, Moves s pc moved ∧ pc' = moved.notify)) ∨
    s.calls[j]? = none ∧ ∃ call, pc' = .start call := by
  have hset : ∀ {i pc moved}, s.calls[i]? = some pc → Moves s pc moved →
      ∀ {after}, (s.calls.set i moved)[j]? = some after →
      ∃ pc, s.calls[j]? = some pc ∧ (after = pc ∨ Moves s pc after) := by
    intro i pc moved hi hmoves after hafter
    rw [List.getElem?_set] at hafter
    split at hafter
    · next hij =>
      subst hij
      split at hafter
      · obtain rfl := Option.some.inj hafter
        exact ⟨pc, hi, Or.inr hmoves⟩
      · cases hafter
    · exact ⟨after, hafter, Or.inl rfl⟩
  cases l with
  | call call =>
    cases hs
    rw [List.getElem?_append] at hj
    split at hj
    · exact Or.inl ⟨pc', hj, Or.inl rfl⟩
    · next hge =>
      refine Or.inr ⟨List.getElem?_eq_none (Nat.le_of_not_lt hge), call, ?_⟩
      exact List.mem_singleton.mp (List.mem_of_getElem? hj)
  | advance i =>
    obtain ⟨pc, hi, hs⟩ := Option.bind_eq_some_iff.mp hs
    obtain ⟨moved, hmoves, hcalls | hcalls⟩ := advance_moves hs
    · rw [hcalls] at hj
      obtain ⟨pc, hpc, heq | hm⟩ := hset hi hmoves hj
      · exact Or.inl ⟨pc, hpc, Or.inl heq⟩
      · exact Or.inl ⟨pc, hpc, Or.inr (Or.inr (Or.inl hm))⟩
    · rw [hcalls, List.getElem?_map, Option.map_eq_some_iff] at hj
      obtain ⟨after, hafter, rfl⟩ := hj
      obtain ⟨pc, hpc, rfl | hm⟩ := hset hi hmoves hafter
      · exact Or.inl ⟨after, hpc, Or.inr (Or.inl rfl)⟩
      · exact Or.inl ⟨pc, hpc, Or.inr (Or.inr (Or.inr ⟨after, hm, rfl⟩))⟩
  | abandon i =>
    simp only [gateNext] at hs
    split at hs
    · next notified hi =>
      cases hs
      have hmoves : Moves s (.asleep notified) (.returned .abandoned) := Or.inr rfl
      obtain ⟨pc, hpc, heq | hm⟩ := hset hi hmoves hj
      · exact Or.inl ⟨pc, hpc, Or.inl heq⟩
      · exact Or.inl ⟨pc, hpc, Or.inr (Or.inr (Or.inl hm))⟩
    · cases hs
  | setService next =>
    cases hs
    exact Or.inl ⟨pc', hj, Or.inl rfl⟩

/-- A gate stays closed. -/
theorem closed_step {s s' : GateState} {l : GateLabel} (hs : gateNext s l = some s')
    (h : s.closed = true) : s'.closed = true := by
  cases l with
  | call | setService =>
    cases hs
    exact h
  | abandon i =>
    simp only [gateNext] at hs
    split at hs <;> cases hs
    exact h
  | advance i =>
    obtain ⟨pc, hi, hs⟩ := Option.bind_eq_some_iff.mp hs
    cases pc with
    | start call =>
      cases call with
      | enterDataMutation | prepareQuit | beginQuiescing =>
        simp only [GateState.advance] at hs
        split at hs
        · cases hs
        · cases hs
          exact h
      | waitForIdle =>
        cases hs
        exact h
    | enterRead seen =>
      cases hs
      unfold GateState.enterDataMutation
      repeat' split
      all_goals exact h
    | dropping | quiesceSet =>
      cases hs
      rw [notifyIfIdle_closed]
      exact h
    | enterLocked | prepareLocked | quiesceClosed | idle =>
      cases hs
      exact h
    | guarded | enabled | asleep =>
      simp only [GateState.advance] at hs
      split at hs <;> cases hs
      exact h
    | returned => cases hs

/-- A call that is no waiter is where it was or moved there. -/
theorem call_step_of_ne {s s' : GateState} {l : GateLabel} (hs : gateNext s l = some s') {j : Nat}
    {pc' : GatePc} (hj : s'.calls[j]? = some pc')
    (hpc' : ∀ notified, pc' ≠ .enabled notified ∧ pc' ≠ .asleep notified)
    (hstart : ∀ call, pc' ≠ .start call) :
    s.calls[j]? = some pc' ∨ ∃ pc, s.calls[j]? = some pc ∧ Moves s pc pc' := by
  have hback : ∀ {pc : GatePc}, pc' = pc.notify → pc = pc' := by
    intro pc heq
    cases pc with
    | enabled => exact absurd heq (hpc' true).1
    | asleep => exact absurd heq (hpc' true).2
    | start | enterLocked | enterRead | guarded | dropping | prepareLocked | quiesceClosed
    | quiesceSet | idle | returned => exact heq.symm
  rcases call_step hs hj with ⟨pc, hpc, heq | heq | hm | ⟨moved, hm, heq⟩⟩ | ⟨-, call, heq⟩
  · exact Or.inl (by rw [hpc, heq])
  · exact Or.inl (by rw [hpc, hback heq])
  · exact Or.inr ⟨pc, hpc, hm⟩
  · exact Or.inr ⟨pc, hpc, by rw [hback heq] at hm; exact hm⟩
  · exact absurd heq (hstart call)

/-- A guard was there, or is issued to a call that has read the service state. -/
theorem guarded_step {s s' : GateState} {l : GateLabel} (hs : gateNext s l = some s') {j : Nat}
    {seen : ServiceStateSnapshot} (hj : s'.calls[j]? = some (.guarded seen)) :
    s.calls[j]? = some (.guarded seen) ∨ s.calls[j]? = some (.enterRead seen) := by
  rcases call_step_of_ne hs hj (fun _ => ⟨(fun h => by cases h), fun h => by cases h⟩)
      (fun _ h => by cases h) with hold | ⟨pc, hpc, hm⟩
  · exact Or.inl hold
  · cases pc with
    | start call =>
      cases call with
      | enterDataMutation | prepareQuit => rcases hm with h | h <;> cases h
      | beginQuiescing => rcases hm with ⟨-, h⟩ | ⟨-, h⟩ <;> cases h
      | waitForIdle => cases hm
    | enterRead other =>
      rcases hm with h | h | ⟨error, h⟩
      · cases h
        exact Or.inr hpc
      · cases h
      · cases h
    | enterLocked | guarded | dropping | quiesceClosed | quiesceSet | idle | returned => cases hm
    | prepareLocked | enabled | asleep => rcases hm with h | h <;> cases h

/-- A call has read the service state before the step, or reads it in the step. -/
theorem enterRead_step {s s' : GateState} {l : GateLabel} (hs : gateNext s l = some s') {j : Nat}
    {seen : ServiceStateSnapshot} (hj : s'.calls[j]? = some (.enterRead seen)) :
    s.calls[j]? = some (.enterRead seen) ∨ seen = s.service := by
  rcases call_step_of_ne hs hj (fun _ => ⟨(fun h => by cases h), fun h => by cases h⟩)
      (fun _ h => by cases h) with hold | ⟨pc, hpc, hm⟩
  · exact Or.inl hold
  · cases pc with
    | start call =>
      cases call with
      | enterDataMutation | prepareQuit => rcases hm with h | h <;> cases h
      | beginQuiescing => rcases hm with ⟨-, h⟩ | ⟨-, h⟩ <;> cases h
      | waitForIdle => cases hm
    | enterLocked =>
      cases hm
      exact Or.inr rfl
    | enterRead => rcases hm with h | h | ⟨error, h⟩ <;> cases h
    | guarded | dropping | quiesceClosed | quiesceSet | idle | returned => cases hm
    | prepareLocked | enabled | asleep => rcases hm with h | h <;> cases h

/-- A call of `wait_for_idle` that has not looked while the gate was open. -/
def GatePc.looksLate : GatePc → Bool
  | .start .waitForIdle | .enabled _ | .asleep _ | .idle true | .returned (.idle true)
  | .returned .abandoned => true
  | _ => false

theorem looksLate_notify {pc : GatePc} (h : pc.looksLate = true) :
    pc.notify.looksLate = true := by
  cases pc with
  | enabled | asleep => rfl
  | start | enterLocked | enterRead | guarded | dropping | prepareLocked | quiesceClosed
  | quiesceSet | idle | returned => exact h

theorem looksLate_moves {s : GateState} (hclosed : s.closed = true) {pc pc' : GatePc}
    (h : pc.looksLate = true) (hm : Moves s pc pc') : pc'.looksLate = true := by
  cases pc with
  | start call =>
    cases call with
    | waitForIdle =>
      cases hm
      rfl
    | enterDataMutation | prepareQuit | beginQuiescing => cases h
  | enabled notified =>
    rcases hm with rfl | rfl
    · rw [hclosed]
      rfl
    · rfl
  | asleep notified => rcases hm with rfl | rfl <;> rfl
  | idle closed =>
    cases hm
    cases closed
    · cases h
    · rfl
  | returned => exact hm.elim
  | enterLocked | enterRead | guarded | dropping | prepareLocked | quiesceClosed | quiesceSet =>
    cases h

/-- A call that has not looked stays one in a gate that is closed. -/
theorem looksLate_step {s s' : GateState} {l : GateLabel} (hs : gateNext s l = some s')
    (hclosed : s.closed = true) {j : Nat} {pc pc' : GatePc} (hpc : s.calls[j]? = some pc)
    (h : pc.looksLate = true) (hj : s'.calls[j]? = some pc') : pc'.looksLate = true := by
  rcases call_step hs hj with ⟨old, hold, hcases⟩ | ⟨hnone, -⟩
  · rw [hpc] at hold
    obtain rfl := Option.some.inj hold
    rcases hcases with rfl | rfl | hm | ⟨moved, hm, rfl⟩
    · exact h
    · exact looksLate_notify h
    · exact looksLate_moves hclosed h hm
    · exact looksLate_notify (looksLate_moves hclosed h hm)
  · rw [hpc] at hnone
    cases hnone

theorem calls_length_step {s s' : GateState} {l : GateLabel} (hs : gateNext s l = some s') :
    s.calls.length ≤ s'.calls.length := by
  cases l with
  | call call =>
    cases hs
    rw [List.length_append]
    exact Nat.le_add_right _ _
  | advance i =>
    obtain ⟨pc, -, hs⟩ := Option.bind_eq_some_iff.mp hs
    obtain ⟨pc', -, hcalls | hcalls⟩ := advance_moves hs
    · exact Nat.le_of_eq (by rw [hcalls, List.length_set])
    · exact Nat.le_of_eq (by rw [hcalls, List.length_map, List.length_set])
  | abandon i =>
    simp only [gateNext] at hs
    split at hs <;> cases hs
    exact Nat.le_of_eq (List.length_set ..).symm
  | setService =>
    cases hs
    exact Nat.le_refl _

/-! ## Runs -/

section
variable {s s' : GateState} {ls : List GateLabel}

theorem closed_run (hrun : mutationGate.Run s ls s') (h : s.closed = true) : s'.closed = true := by
  induction hrun with
  | nil => exact h
  | cons hs _ ih => exact ih (closed_step hs h)

/-- No guard is issued once the gate is closed. -/
theorem guarded_run (hreach : mutationGate.Reachable s) (hrun : mutationGate.Run s ls s')
    (hclosed : s.closed = true) {i : Nat} {seen : ServiceStateSnapshot}
    (hi : s'.calls[i]? = some (.guarded seen)) : s.calls[i]? = some (.guarded seen) := by
  induction hrun with
  | nil => exact hi
  | @cons a b c l ls hs hrest ih =>
    have hmid := ih (hreach.step hs) (closed_step hs hclosed) hi
    rcases guarded_step hs hmid with hold | hread
    · exact hold
    · have hinv := gateInv_inductive.reachable _ hreach
      have hopen := (hinv.core.knows i _ hread).2
      rw [hclosed] at hopen
      cases hopen

/-- While the service is not ready, a guard goes to no call that has not read
the state before. -/
theorem guarded_unready {i : Nat} {seen : ServiceStateSnapshot} (hseen : seen.state = .ready)
    (hrun : (mutationGate.restrict fun s _ => s.service.state ≠ .ready).Run s ls s')
    (hi : s'.calls[i]? = some (.guarded seen) ∨ s'.calls[i]? = some (.enterRead seen)) :
    s.calls[i]? = some (.guarded seen) ∨ s.calls[i]? = some (.enterRead seen) := by
  induction hrun with
  | nil => exact hi
  | cons hs _ ih =>
    rcases ih hi with hguard | hread
    · exact guarded_step hs.2 hguard
    · rcases enterRead_step hs.2 hread with hold | heq
      · exact Or.inr hold
      · rw [heq] at hseen
        exact absurd hseen hs.1

theorem looksLate_run (hrun : mutationGate.Run s ls s') (hclosed : s.closed = true) {i : Nat}
    {pc pc' : GatePc} (hpc : s.calls[i]? = some pc) (h : pc.looksLate = true)
    (hi : s'.calls[i]? = some pc') : pc'.looksLate = true := by
  induction hrun generalizing pc with
  | nil =>
    rw [hpc] at hi
    obtain rfl := Option.some.inj hi
    exact h
  | @cons a b c l ls hs hrest ih =>
    have hlt : i < b.calls.length :=
      Nat.lt_of_lt_of_le (List.getElem?_eq_some_iff.mp hpc).1 (calls_length_step hs)
    have hmid : b.calls[i]? = some b.calls[i] := List.getElem?_eq_getElem hlt
    exact ih (closed_step hs hclosed) hmid (looksLate_step hs hclosed hpc h hmid) hi

end

/-! ## The contract -/

/-- The call owns a guard, and has read this state for it. -/
def Owns (s : GateState) (i : Nat) (seen : ServiceStateSnapshot) : Prop :=
  s.calls[i]? = some (.guarded seen)

/-- The call holds the lock and has read this state. -/
def HasRead (s : GateState) (i : Nat) (seen : ServiceStateSnapshot) : Prop :=
  s.calls[i]? = some (.enterRead seen)

/-- What is asked of the gate. -/
structure GateContract (s : GateState) : Prop where
  /-- the count is that of the live guards, and never goes below zero -/
  count : s.active = s.calls.countP GatePc.isGuarded ∧ ∀ i seen, Owns s i seen → 0 < s.active
  /-- `begin_quiescing` returns true once -/
  once : s.calls.countP (· = .returned (.quiesced true)) ≤ 1
  /-- and no guard is issued after it -/
  sealed : .returned (.quiesced true) ∈ s.calls → ∀ {ls s'}, mutationGate.Run s ls s' →
    ∀ i seen, Owns s' i seen → Owns s i seen
  /-- the call of a guard read `Ready` -/
  ready : ∀ i seen, Owns s i seen → seen.state = .ready
  /-- while the state is another one, only a call that read it before gets a guard -/
  unready : ∀ {ls s'}, (mutationGate.restrict fun s _ => s.service.state ≠ .ready).Run s ls s' →
    ∀ i seen, Owns s' i seen → Owns s i seen ∨ HasRead s i seen
  /-- there is one such call at most -/
  reader : ∀ i j a b, HasRead s i a → HasRead s j b → i = j
  /-- when `wait_for_idle` has returned after a look at the closed gate there is no guard, nor
  later -/
  idle : .returned (.idle true) ∈ s.calls → ∀ {ls s'}, mutationGate.Run s ls s' →
    ∀ i seen, ¬Owns s' i seen
  /-- and a call that did not look while the gate was open looks at the closed gate -/
  late : s.closed = true → ∀ (i : Nat) (pc : GatePc), s.calls[i]? = some pc →
    pc.looksLate = true → ∀ {ls s'}, mutationGate.Run s ls s' →
      s'.calls[i]? ≠ some (.returned (.idle false))
  /-- nobody sleeps unwoken at zero, but for who the lock holder is about to wake -/
  awake : s.active = 0 → ∀ i : Nat, s.calls[i]? = some (.asleep false) →
    ∃ k : Nat, s.calls[k]? = some .dropping ∧ s.holder = some k

/-- **The contract of the gate** holds in every reachable state. -/
theorem gate_contract {s : GateState} (h : mutationGate.Reachable s) : GateContract s := by
  have hinv := gateInv_inductive.reachable s h
  have hclosers := hinv.core.closers
  have hsealed : .returned (.quiesced true) ∈ s.calls → s.closed = true := by
    intro hmem
    have hpos : 0 < s.calls.countP GatePc.isCloser := List.countP_pos_iff.mpr ⟨_, hmem, rfl⟩
    rw [hclosers] at hpos
    by_contra hopen
    rw [if_neg hopen] at hpos
    exact Nat.lt_irrefl 0 hpos
  refine ⟨⟨hinv.core.count, fun i seen hi => hinv.core.pos hi⟩, ?_, ?_, ?_, ?_, ?_, ?_, ?_, ?_⟩
  · have hle : s.calls.countP (· = .returned (.quiesced true)) ≤ s.calls.countP GatePc.isCloser := by
      apply List.countP_mono_left
      intro pc _ hpc
      rw [of_decide_eq_true hpc]
      rfl
    split at hclosers <;> omega
  · intro hmem ls s' hrun i seen hi
    exact guarded_run h hrun (hsealed hmem) hi
  · exact fun i seen hi => hinv.core.knows i _ hi
  · intro ls s' hrun i seen hi
    have hready := (gateInv_inductive.reachable s' (h.run hrun.of_restrict)).core.knows i _ hi
    exact guarded_unready hready hrun (Or.inl hi)
  · intro i j a b hi hj
    have hheld := (hinv.core.knows i _ hi).1
    rw [(hinv.core.knows j _ hj).1] at hheld
    exact (Option.some.inj hheld).symm
  · intro hmem ls s' hrun i seen hi
    obtain ⟨k, hk⟩ := List.getElem?_of_mem hmem
    obtain ⟨hclosed, hzero⟩ := hinv.core.knows k _ hk
    have hpos := hinv.core.pos (guarded_run h hrun hclosed hi)
    omega
  · intro hclosed i pc hpc hlate ls s' hrun hi
    have hreturned := looksLate_run hrun hclosed hpc hlate hi
    cases hreturned
  · intro hzero i hi
    rcases hinv.awake i hi with hpos | ⟨k, hk⟩
    · omega
    · exact ⟨k, hk, hinv.core.knows k _ hk⟩

/-- Two guards are issued, the gate closes while a waiter sleeps, the guards are
dropped, and the waiter returns. -/
def sampleGate : List GateLabel :=
  [.call .enterDataMutation, .call .enterDataMutation, .call .waitForIdle, .call .beginQuiescing,
    .advance 0, .advance 0, .advance 0, .advance 1, .advance 1, .advance 1, .advance 2, .advance 2,
    .advance 3, .advance 3, .advance 3, .advance 0, .advance 0, .advance 1, .advance 1, .advance 2,
    .advance 2, .advance 2]

theorem gate_contract_sample :
    ∃ s, mutationGate.Reachable s ∧ .returned (.idle true) ∈ s.calls ∧ GateContract s := by
  have hrun : (LTS.exec gateNext (.new (.new .ready)) sampleGate).map (·.calls[2]?) =
      some (some (.returned (.idle true))) := by decide +kernel
  obtain ⟨s, hs, hidle⟩ := Option.map_eq_some_iff.1 hrun
  have hr : mutationGate.Reachable s := LTS.reachable_of_exec ⟨_, rfl⟩ hs
  exact ⟨s, hr, List.mem_of_getElem? hidle, gate_contract hr⟩

/-! ## Two races -/

/-- A call reads `Ready`, the store degrades, and the call gets its guard. -/
def degradedRace : List GateLabel :=
  [.call .enterDataMutation, .advance 0, .advance 0, .setService .storeDegraded]

/-- A waiter finds no guard, another call gets one, the gate closes, and the
waiter returns. -/
def idleRace : List GateLabel :=
  [.call .waitForIdle, .advance 0, .advance 0, .call .enterDataMutation, .advance 1, .advance 1,
    .advance 1, .call .beginQuiescing, .advance 2, .advance 2, .advance 2]

/-- A guard is issued while the store is degraded, and a `wait_for_idle` returns
after the gate closed while a guard is live. -/
theorem gate_races :
    (∃ s s', mutationGate.Reachable s ∧ gateNext s (.advance 0) = some s' ∧
      s.service.state = .storeDegraded ∧ s'.service.state = .storeDegraded ∧
      (∀ seen, ¬Owns s 0 seen) ∧ ∃ seen, Owns s' 0 seen) ∧
    (∃ s s', mutationGate.Reachable s ∧ gateNext s (.advance 0) = some s' ∧
      .returned (.quiesced true) ∈ s.calls ∧ (∀ closed, s.calls[0]? ≠ some (.returned (.idle closed))) ∧
      (∃ closed, s'.calls[0]? = some (.returned (.idle closed))) ∧ ∃ seen, Owns s' 1 seen) := by
  constructor
  · have hrun : LTS.exec gateNext (.new (.new .ready)) degradedRace =
        some ⟨⟨.storeDegraded, 1⟩, false, 0, some 0, [.enterRead ⟨.ready, 0⟩]⟩ := by decide +kernel
    have hstep : gateNext ⟨⟨.storeDegraded, 1⟩, false, 0, some 0, [.enterRead ⟨.ready, 0⟩]⟩
        (.advance 0) = some ⟨⟨.storeDegraded, 1⟩, false, 1, none, [.guarded ⟨.ready, 0⟩]⟩ := by
      decide +kernel
    refine ⟨_, _, LTS.reachable_of_exec ⟨_, rfl⟩ hrun, hstep, rfl, rfl, ?_, ⟨⟨.ready, 0⟩, rfl⟩⟩
    intro seen h
    cases h
  · have hrun : LTS.exec gateNext (.new (.new .ready)) idleRace =
        some ⟨⟨.quiescing, 1⟩, true, 1, none,
          [.idle false, .guarded ⟨.ready, 0⟩, .returned (.quiesced true)]⟩ := by decide +kernel
    have hstep : gateNext ⟨⟨.quiescing, 1⟩, true, 1, none,
          [.idle false, .guarded ⟨.ready, 0⟩, .returned (.quiesced true)]⟩ (.advance 0) =
        some ⟨⟨.quiescing, 1⟩, true, 1, none, [.returned (.idle false), .guarded ⟨.ready, 0⟩,
          .returned (.quiesced true)]⟩ := by decide +kernel
    refine ⟨_, _, LTS.reachable_of_exec ⟨_, rfl⟩ hrun, hstep, ?_, ?_, ⟨false, rfl⟩, ⟨_, rfl⟩⟩
    · simp
    · intro closed h
      cases h

end CodingAgent.L4.App
