import CodingAgent.L3Api.Sse

/-!
# The service controls of a connection (`coding-agent-api/src/sse.rs`)

A connection sends the service state it reads when it starts and afterwards the
newest of the updates it finds ready, if that is newer than what it sent last.

* `Quiet`, `Emits`: what a step does to the controls.
* `service_step`: every step is one of the two, and emits a snapshot it read.
* `controlsInv_inductive`: the generations sent are strictly increasing.
-/
namespace CodingAgent.L3.Api
open CodingAgent.L1.Domain

/-- The service controls among the frames sent. -/
def controls (out : List SseFrame) : List ServiceStateSnapshot :=
  out.filterMap fun
    | .serviceState control => some control
    | _ => none

@[simp] theorem controls_event (out : List SseFrame) (e : TaskEvent) :
    controls (out ++ [.event e]) = controls out := by
  simp [controls]

@[simp] theorem controls_heartbeat (out : List SseFrame) :
    controls (out ++ [.heartbeat]) = controls out := by
  simp [controls]

@[simp] theorem controls_reset (out : List SseFrame) (id : Int) :
    controls (out ++ [.reset id]) = controls out := by
  simp [controls]

@[simp] theorem controls_serviceState (out : List SseFrame) (control : ServiceStateSnapshot) :
    controls (out ++ [.serviceState control]) = controls out ++ [control] := by
  simp [controls]

/-- The snapshots a step reads. -/
def SseLabel.snapshots : SseLabel → List ServiceStateSnapshot
  | .serviceState (some control) _ => [control]
  | .service ready _ _ => ready
  | _ => []

/-! ## Steps -/

/-- A step, or a part of one, that sends no control. -/
structure Quiet (s s' : SseState) : Prop where
  controls_eq : controls s'.out = controls s.out
  generation_eq : s'.serviceGeneration = s.serviceGeneration
  started : s.pc ≠ .start → s'.pc ≠ .start

/-- A step that sends a control. -/
structure Emits (s s' : SseState) (control : ServiceStateSnapshot) : Prop where
  controls_eq : controls s'.out = controls s.out ++ [control]
  generation_eq : s'.serviceGeneration = control.generation
  newer : s.pc = .start ∨ s.serviceGeneration < control.generation
  started : s'.pc ≠ .start

theorem Quiet.refl (s : SseState) : Quiet s s := ⟨rfl, rfl, id⟩

theorem Quiet.trans {a b c : SseState} (h₁ : Quiet a b) (h₂ : Quiet b c) : Quiet a c where
  controls_eq := h₂.controls_eq.trans h₁.controls_eq
  generation_eq := h₂.generation_eq.trans h₁.generation_eq
  started h := h₂.started (h₁.started h)

/-- A quiet part after a change of other fields. -/
theorem Quiet.after {a b c : SseState} (h : Quiet b c) (hout : b.out = a.out)
    (hgeneration : b.serviceGeneration = a.serviceGeneration) (hpc : b.pc = a.pc) : Quiet a c where
  controls_eq := by rw [h.controls_eq, hout]
  generation_eq := h.generation_eq.trans hgeneration
  started hstart := h.started (by rw [hpc]; exact hstart)

theorem Emits.quiet {a b c : SseState} {control : ServiceStateSnapshot}
    (h₁ : Emits a b control) (h₂ : Quiet b c) : Emits a c control where
  controls_eq := h₂.controls_eq.trans h₁.controls_eq
  generation_eq := h₂.generation_eq.trans h₁.generation_eq
  newer := h₁.newer
  started := h₂.started h₁.started

section
variable (s : SseState)

theorem quiet_terminate : Quiet s s.terminate := ⟨rfl, rfl, fun _ h => by cases h⟩

theorem quiet_toLive : Quiet s s.toLive := by
  unfold SseState.toLive
  split
  · exact quiet_terminate s
  · exact ⟨rfl, rfl, fun _ h => by cases h⟩

theorem quiet_refill : Quiet s s.refill := by
  unfold SseState.refill
  split
  · exact ⟨rfl, rfl, fun _ h => by cases h⟩
  · exact ⟨rfl, rfl, fun _ h => by cases h⟩

theorem quiet_drained (lagged : Nat) (exhausted : Bool) : Quiet s (s.drained lagged exhausted) :=
  (quiet_refill _).after rfl rfl rfl

theorem quiet_replay (high : Int) : Quiet s (s.replay high) := by
  unfold SseState.replay
  split
  · exact ⟨rfl, rfl, fun _ h => by cases h⟩
  · exact ⟨rfl, rfl, fun _ h => by cases h⟩

theorem quiet_yieldEvent (e : TaskEvent) : Quiet s (s.yieldEvent e) :=
  ⟨controls_event _ e, rfl, id⟩

theorem quiet_onHigh (high : Int) (serialized : Bool) : Quiet s (s.onHigh high serialized) := by
  unfold SseState.onHigh
  dsimp only
  split
  · cases serialized
    · exact ⟨rfl, rfl, fun _ h => by cases h⟩
    · exact ⟨controls_reset _ high, rfl, fun _ h => by cases h⟩
  · exact (quiet_replay _ high).after rfl rfl rfl

theorem quiet_emitPage (high before : Int) (rest : List TaskEvent) (serialized : Bool) :
    Quiet s (s.emitPage high before rest serialized) := by
  unfold SseState.emitPage
  split
  · split
    · exact quiet_terminate s
    · exact quiet_replay s high
  · next e rest =>
    split
    · exact ⟨rfl, rfl, fun _ h => by cases h⟩
    · split
      · exact ⟨controls_event _ e, rfl, fun _ h => by cases h⟩
      · exact quiet_terminate s

theorem quiet_emitBuffered (rest : List TaskEvent) (serialized : Bool) :
    Quiet s (s.emitBuffered rest serialized) := by
  unfold SseState.emitBuffered
  split
  · exact quiet_toLive s
  · next e rest =>
    split
    · exact ⟨rfl, rfl, fun _ h => by cases h⟩
    · split
      · exact ⟨controls_event _ e, rfl, fun _ h => by cases h⟩
      · exact quiet_terminate s

theorem quiet_bufferEvent (e : TaskEvent) (left lagged : Nat) :
    Quiet s (s.bufferEvent e left lagged) := by
  unfold SseState.bufferEvent
  dsimp only
  split
  · split
    · exact ⟨rfl, rfl, fun _ h => by cases h⟩
    · exact ⟨rfl, rfl, fun _ h => by cases h⟩
  · exact ⟨rfl, rfl, fun _ h => by cases h⟩

end

theorem quiet_drainStep {s s' : SseState} {left lagged : Nat} {pending : Bool}
    (h : s.drainStep left lagged pending = some s') : Quiet s s' := by
  unfold SseState.drainStep at h
  split at h
  · cases h
    exact ⟨rfl, rfl, fun _ h => by cases h⟩
  · split at h
    · cases h
      exact quiet_drained s _ _
    · split at h
      · cases h
      · cases h
        exact (quiet_bufferEvent _ _ _ _).after rfl rfl rfl
      · cases h
        exact ⟨rfl, rfl, fun _ h => by cases h⟩

theorem quiet_receive {s s' : SseState} {serialized : Bool}
    (h : s.receive serialized = some s') : Quiet s s' := by
  unfold SseState.receive at h
  split at h
  · cases h
  · next e queue _ =>
    cases h
    dsimp only
    split
    · split
      · exact ((quiet_yieldEvent { s with queue } e).trans (quiet_toLive _)).after rfl rfl rfl
      · exact (quiet_terminate _).after rfl rfl rfl
    · exact (quiet_toLive _).after rfl rfl rfl
  · cases h
    exact ⟨rfl, rfl, fun _ h => by cases h⟩

theorem mem_of_coalesceService {ready : List ServiceStateSnapshot} {newest : ServiceStateSnapshot}
    (h : coalesceService ready = some newest) : newest ∈ ready := by
  cases ready with
  | nil => cases h
  | cons first ready =>
    obtain rfl := Option.some.inj h
    clear h
    induction ready generalizing first with
    | nil => exact List.mem_singleton_self first
    | cons next ready ih =>
      rw [List.foldl_cons]
      split
      · exact List.mem_cons_of_mem first (ih next)
      · rcases List.mem_cons.mp (ih first) with h | h
        · rw [h]
          exact List.mem_cons_self
        · exact List.mem_cons_of_mem first (List.mem_cons_of_mem next h)

/-- A service update is quiet or sends a snapshot it found, newer than the last
one sent. -/
theorem onService_cases {s : SseState} (hpc : s.pc ≠ .start) (ready : List ServiceStateSnapshot)
    (ended serialized : Bool) : Quiet s (s.onService ready ended serialized) ∨
      ∃ control ∈ ready, Emits s (s.onService ready ended serialized) control := by
  unfold SseState.onService
  dsimp only
  split
  · exact Or.inl ⟨rfl, rfl, id⟩
  · next newest hnewest =>
    split
    · next hnewer =>
      split
      · exact Or.inr ⟨newest, mem_of_coalesceService hnewest, controls_serviceState _ newest, rfl,
          Or.inr hnewer, hpc⟩
      · exact Or.inl ⟨rfl, rfl, fun _ h => by cases h⟩
    · exact Or.inl ⟨rfl, rfl, id⟩

/-- **What a step does to the controls.** It sends none, or one snapshot it
read. -/
theorem service_step {s s' : SseState} {l : SseLabel} (h : sseNext s l = some s') :
    Quiet s s' ∨ ∃ control ∈ l.snapshots, Emits s s' control := by
  cases l with
  | commit | publish =>
    simp only [sseNext] at h
    split at h <;> cases h
    exact Or.inl ⟨rfl, rfl, id⟩
  | lag | endLive =>
    cases h
    exact Or.inl ⟨rfl, rfl, id⟩
  | serviceState current serialized =>
    simp only [sseNext] at h
    split at h
    · next control hpc =>
      cases h
      split
      · exact Or.inr ⟨control, List.mem_singleton_self control, controls_serviceState _ control,
          rfl, Or.inl hpc, fun h => by cases h⟩
      · exact Or.inl (quiet_terminate s)
    · cases h
      exact Or.inl (quiet_terminate s)
    · cases h
  | heartbeat =>
    simp only [sseNext] at h
    split at h <;> cases h
    all_goals exact Or.inl ⟨controls_heartbeat _, rfl, id⟩
  | service ready ended serialized =>
    simp only [sseNext] at h
    split at h
    · cases h
    · split at h
      · next hpc =>
        cases h
        exact onService_cases (by rw [hpc]; exact fun h => by cases h) ready ended serialized
      · next hpc =>
        cases h
        exact onService_cases (by rw [hpc]; exact fun h => by cases h) ready ended serialized
      · next hpc =>
        cases h
        have hlive : s.pc ≠ .start := by rw [hpc]; exact fun h => by cases h
        have hrest : Quiet (s.onService ready ended serialized)
            (if (s.onService ready ended serialized).pc = .done then
              s.onService ready ended serialized
            else (s.onService ready ended serialized).toLive) := by
          split
          · exact Quiet.refl _
          · exact quiet_toLive _
        rcases onService_cases hlive ready ended serialized with hquiet | ⟨control, hmem, hemits⟩
        · exact Or.inl (hquiet.trans hrest)
        · exact Or.inr ⟨control, hmem, hemits.quiet hrest⟩
      · cases h
  | read ok serialized =>
    simp only [sseNext] at h
    split at h
    · cases h
      split
      · exact Or.inl (quiet_onHigh s _ serialized)
      · exact Or.inl (quiet_terminate s)
    · split at h
      · cases h
        exact Or.inl ⟨rfl, rfl, fun _ h => by cases h⟩
      · cases h
        exact Or.inl (quiet_terminate s)
    · cases h
  | emit serialized =>
    simp only [sseNext] at h
    split at h
    · cases h
      exact Or.inl (quiet_emitPage s _ _ _ serialized)
    · cases h
      exact Or.inl (quiet_emitBuffered s _ serialized)
    · cases h
  | poll pending =>
    simp only [sseNext] at h
    split at h
    · exact Or.inl (quiet_drainStep h)
    · cases h
  | pollEnd =>
    simp only [sseNext] at h
    split at h
    · split at h
      · cases h
        exact Or.inl ((quiet_drained _ _ false).after rfl rfl rfl)
      · cases h
    · cases h
  | yielded =>
    simp only [sseNext] at h
    split at h
    · cases h
      exact Or.inl (quiet_drained s _ true)
    · cases h
  | receive serialized =>
    simp only [sseNext] at h
    split at h
    · split at h
      · cases h
      · exact Or.inl (quiet_receive h)
    · cases h
  | receiveEnd =>
    simp only [sseNext] at h
    split at h
    · split at h
      · cases h
        exact Or.inl ((quiet_toLive _).after rfl rfl rfl)
      · cases h
    · cases h

/-! ## Runs -/

/-- What a connection has sent: increasing generations up to the last one. -/
structure ControlsInv (s : SseState) : Prop where
  fresh : s.pc = .start → controls s.out = []
  bound : ∀ control ∈ controls s.out, control.generation ≤ s.serviceGeneration
  increasing : (controls s.out).Pairwise fun a b => a.generation < b.generation

theorem controlsInv_connect (log : List TaskEvent) (published after : Int) :
    ControlsInv (.connect log published after) where
  fresh _ := rfl
  bound _ h := by cases h
  increasing := List.Pairwise.nil

theorem ControlsInv.step {s s' : SseState} {l : SseLabel} (h : ControlsInv s)
    (hs : sseNext s l = some s') : ControlsInv s' := by
  rcases service_step hs with hquiet | ⟨control, -, hemits⟩
  · refine ⟨fun hpc => ?_, ?_, ?_⟩
    · rw [hquiet.controls_eq]
      by_cases hstart : s.pc = .start
      · exact h.fresh hstart
      · exact absurd hpc (hquiet.started hstart)
    · rw [hquiet.controls_eq, hquiet.generation_eq]
      exact h.bound
    · rw [hquiet.controls_eq]
      exact h.increasing
  · have hbelow : ∀ old ∈ controls s.out, old.generation < control.generation := by
      intro old hold
      rcases hemits.newer with hstart | hnewer
      · rw [h.fresh hstart] at hold
        cases hold
      · exact Nat.lt_of_le_of_lt (h.bound old hold) hnewer
    refine ⟨fun hpc => absurd hpc hemits.started, ?_, ?_⟩
    · rw [hemits.controls_eq, hemits.generation_eq]
      intro old hold
      rcases List.mem_append.mp hold with hold | hold
      · exact Nat.le_of_lt (hbelow old hold)
      · rw [List.mem_singleton.mp hold]
    · rw [hemits.controls_eq, List.pairwise_append]
      refine ⟨h.increasing, List.pairwise_singleton _ _, fun old hold new hnew => ?_⟩
      rw [List.mem_singleton.mp hnew]
      exact hbelow old hold

theorem controlsInv_inductive (after : Int) : (sse after).Inductive ControlsInv where
  init s hs := by
    obtain ⟨log, published, -, -, rfl⟩ := hs
    exact controlsInv_connect log published after
  step _ _ _ h hs := h.step hs

end CodingAgent.L3.Api
