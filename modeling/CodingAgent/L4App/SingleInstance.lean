import CodingAgent.Core.Lts
import Mathlib.Logic.Function.Basic

/-!
# One instance at a time (`coding-agent-app/src/single_instance.rs`)

Any number of launches on the same paths, each call of the operating system a
step. A launch may fail or be dropped at any step of its start, shut down, or
crash; the server task, which has a clone of the lease, may end at any time.
The lock of `instance.lock` is the operating system's: it is granted when
nobody has it, and free again when the last handle of its owner is closed.

* `inv_inductive`: what a launch has at each of its steps.
* `run_ordered`: the steps of a start that a run has seen.
* `single_instance`: who holds the lock, who touches the descriptor, whose
  descriptor there is, and what comes before it.
-/
namespace CodingAgent.L4.App.SingleInstance

/-! ## Launches -/

/-- The steps of a primary that can fail, in the order of `order`.
mirrors crates/coding-agent-app/src/single_instance.rs:146-152,225-247,795-989 -/
inductive StartupStep where
  /-- `harden_private_file` of the lock file, just locked -/
  | harden
  /-- `remove_stale_descriptors`, the descriptor -/
  | removeStale
  /-- `remove_stale_descriptors`, the temporary files -/
  | scanTemporary
  | openStore
  | migrate
  | timestamp
  | recover
  /-- `remove_recovered_shutdown_marker` -/
  | removeMarker
  | seed
  | bind
  | security
  | dispatcher
  /-- `ServerRuntime::spawn` -/
  | spawnServer
  /-- `RuntimeDescriptor::new` -/
  | describe
  | probe
  | markReady
  /-- `publish`, up to the temporary file -/
  | writeTemporary
  /-- `atomic_replace` -/
  | replace
  /-- `sync_parent_directory` -/
  | syncParent
  deriving DecidableEq, Repr

namespace StartupStep

def order : List StartupStep :=
  [harden, removeStale, scanTemporary, openStore, migrate, timestamp, recover, removeMarker, seed,
    bind, security, dispatcher, spawnServer, describe, probe, markReady, writeTemporary, replace,
    syncParent]

/-- The steps before a step. -/
def before (step : StartupStep) : List StartupStep := order.takeWhile (· ≠ step)

def next (step : StartupStep) : Option StartupStep := (order.dropWhile (· ≠ step)).tail.head?

/-- The steps of `publish`, after the failure of which the descriptor is removed. -/
def isPublish : StartupStep → Bool
  | writeTemporary | replace | syncParent => true
  | _ => false

end StartupStep

/-- Where a launch is. -/
inductive Pc where
  | idle
  /-- before `InstanceLock::try_acquire` -/
  | prepared
  /-- the lock was taken; `start_secondary` reads only -/
  | secondary
  | starting (step : StartupStep)
  /-- `publish` failed; before `remove_file` of the descriptor -/
  | withdrawing
  /-- the start is dropped, the lock still held -/
  | unwinding
  | running
  /-- in `force_cleanup` with the lock and the mutex, before `remove_descriptor` -/
  | cleaning
  /-- there, the mutex being free, before the lock is dropped -/
  | cleaned
  | stopped
  | crashed
  deriving DecidableEq, Repr

namespace Pc

/-- The launch has an `InstanceLock`. -/
def owns : Pc → Bool
  | starting _ | withdrawing | unwinding | running | cleaning | cleaned => true
  | idle | prepared | secondary | stopped | crashed => false

/-- The descriptor has been published and not been withdrawn. -/
def published : Pc → Bool
  | starting step => step = .syncParent
  | running | cleaning => true
  | _ => false

/-- Stale descriptors have been removed, and the own one is not published yet. -/
def clean : Pc → Bool
  | starting step => .removeStale ∈ step.before ∧ .replace ∉ step.before
  | _ => false

/-- `mark_ready` has been called. -/
def ready : Pc → Bool
  | starting step => .markReady ∈ step.before
  | withdrawing | running | cleaning => true
  | _ => false

end Pc

/-- mirrors crates/coding-agent-app/src/single_instance.rs:489-494 -/
inductive StartupPhase where
  | starting
  | ready
  deriving DecidableEq, Repr

/-- A launch. The clone of the lease is that of the server task. -/
structure Launch where
  pc : Pc
  lease : Bool
  keepalive : Bool
  phase : StartupPhase
  deriving DecidableEq, Repr

/-- What is at the descriptor's path: what somebody left there, or what a launch
published. -/
inductive Descriptor where
  | leftover
  | published (launch : Nat)
  deriving DecidableEq, Repr

structure State where
  launches : Nat → Launch
  /-- the operating system's: who has the lock of `instance.lock` -/
  lock : Option Nat
  descriptor : Option Descriptor

/-- The launch has an open handle of the locked file. -/
def Launch.Holds (launch : Launch) : Prop := launch.lease = true ∨ launch.keepalive = true

/-- The launch has published its descriptor, is ready, and has not begun to
remove it. -/
def State.Published (s : State) (p : Nat) : Prop := (s.launches p).pc.published = true

/-! ## Steps -/

/-- mirrors crates/coding-agent-app/src/local_client.rs:25-30 -/
structure ReadyProbe where
  instanceId : Nat
  state : StartupPhase
  deriving DecidableEq, Repr

inductive Label where
  | prepare (p : Nat)
  | tryAcquire (p : Nat)
  /-- a step of the start succeeds -/
  | done (p : Nat) (step : StartupStep)
  /-- `probe_ready` returned a status and a probe -/
  | probed (p : Nat) (response : Option (Nat × ReadyProbe))
  /-- a step returns an error -/
  | fail (p : Nat)
  /-- the future of `launch` is dropped, or a step panics -/
  | abandon (p : Nat)
  /-- `remove_file` after a failed `publish`, and whether it did -/
  | withdraw (p : Nat) (removed : Bool)
  /-- the lock goes out of scope -/
  | dropLock (p : Nat)
  /-- the server task is over -/
  | serverEnds (p : Nat)
  /-- `force_cleanup`, of the coordinator or of a drop, up to the lock -/
  | forceCleanup (p : Nat)
  /-- `remove_descriptor`, and whether it did -/
  | removeDescriptor (p : Nat) (removed : Bool)
  | releaseLock (p : Nat)
  | crash (p : Nat)
  deriving DecidableEq, Repr

/-- The launch that touches the descriptor's path. -/
def Label.touches : Label → Option Nat
  | .done p .removeStale | .done p .replace | .withdraw p _ | .removeDescriptor p _ => some p
  | _ => none

namespace State
variable (s : State) (p : Nat)

/-- A launch goes on. -/
def set (launch : Launch) : State :=
  { s with launches := Function.update s.launches p launch }

/-- A launch goes on, having closed handles; with the last one the operating
system frees the lock. -/
def close (launch : Launch) : State :=
  { s with
    launches := Function.update s.launches p launch
    lock := if launch.lease || launch.keepalive || s.lock ≠ some p then s.lock else none }

/-- `remove_file`, where it succeeds. -/
def remove (removed : Bool) : State :=
  { s with descriptor := if removed then none else s.descriptor }

end State

open State

/-- Where a launch is after a step of the start. -/
def StartupStep.nextPc (step : StartupStep) : Pc :=
  match step.next with
  | some step => .starting step
  | none => .running

/-- What a step of the start does to the descriptor.
mirrors crates/coding-agent-app/src/single_instance.rs:225-247,1222-1227 -/
def StartupStep.descriptor (step : StartupStep) (p : Nat) (before : Option Descriptor) :
    Option Descriptor :=
  match step with
  | .removeStale => none
  | .replace => some (.published p)
  | _ => before

/-- What it does to the launch.
mirrors crates/coding-agent-app/src/single_instance.rs:963,983-985,1289-1302 -/
def StartupStep.launch (step : StartupStep) (launch : Launch) : Launch :=
  match step with
  | .spawnServer => { launch with keepalive := true }
  | .markReady => { launch with phase := .ready }
  | _ => launch

def done (s : State) (p : Nat) (step : StartupStep) : State :=
  { s with descriptor := step.descriptor p s.descriptor }.set p
    { step.launch (s.launches p) with pc := step.nextPc }

/-- mirrors crates/coding-agent-app/src/single_instance.rs:976-982 -/
def accepts (p : Nat) (response : Option (Nat × ReadyProbe)) : Bool :=
  response.any fun (status, probe) =>
    status = 200 ∧ probe.instanceId = p ∧ probe.state = .starting

def goto (s : State) (p : Nat) (pc : Pc) : State := s.set p { s.launches p with pc }

/-- mirrors crates/coding-agent-app/src/single_instance.rs:108-159,697-714,795-1056,1283-1400 -/
def next (s : State) : Label → Option State
  | .prepare p => if (s.launches p).pc = .idle then some (goto s p .prepared) else none
  | .tryAcquire p =>
    if (s.launches p).pc = .prepared then
      some (if s.lock = none then
        { s with lock := some p }.set p { s.launches p with pc := .starting .harden, lease := true }
      else goto s p .secondary)
    else none
  | .done p step =>
    -- `mark_ready` succeeds once
    if (s.launches p).pc = .starting step ∧ step ≠ .probe ∧
        (step = .markReady → (s.launches p).phase = .starting) then
      some (done s p step)
    else none
  | .probed p response =>
    if (s.launches p).pc = .starting .probe then
      some (if accepts p response then done s p .probe else goto s p .unwinding)
    else none
  | .fail p =>
    match (s.launches p).pc with
    | .idle | .prepared => some (goto s p .stopped)
    | .starting step => some (goto s p (if step.isPublish then .withdrawing else .unwinding))
    | _ => none
  | .abandon p =>
    match (s.launches p).pc with
    | .starting _ => some (goto s p .unwinding)
    | _ => none
  | .withdraw p removed =>
    if (s.launches p).pc = .withdrawing then some (goto (s.remove removed) p .unwinding) else none
  | .dropLock p =>
    if (s.launches p).pc = .unwinding then
      some (s.close p { s.launches p with pc := .stopped, lease := false })
    else none
  | .serverEnds p =>
    if (s.launches p).keepalive then some (s.close p { s.launches p with keepalive := false })
    else none
  | .forceCleanup p =>
    match (s.launches p).pc with
    | .running => some (goto s p .cleaning)
    -- the lock has been taken from the resources
    | .cleaned | .stopped => some s
    | _ => none
  | .removeDescriptor p removed =>
    if (s.launches p).pc = .cleaning then some (goto (s.remove removed) p .cleaned) else none
  | .releaseLock p =>
    if (s.launches p).pc = .cleaned then
      some (s.close p { s.launches p with pc := .stopped, lease := false })
    else none
  | .crash p =>
    some (s.close p { s.launches p with pc := .crashed, lease := false, keepalive := false })

def Launch.new : Launch where
  pc := .idle
  lease := false
  keepalive := false
  phase := .starting

/-- Nobody has been launched; there may be a descriptor. -/
def Initial (s : State) : Prop := (∀ p, s.launches p = .new) ∧ s.lock = none ∧
  ∀ q, s.descriptor ≠ some (.published q)

def instances : LTS State Label := .ofFn Initial next

/-! ## What a launch has -/

structure LaunchOk (lock : Option Nat) (descriptor : Option Descriptor) (p : Nat) (launch : Launch) :
    Prop where
  holds : launch.Holds ↔ lock = some p
  lease : launch.lease = launch.pc.owns
  published : launch.pc.published = true → descriptor = some (.published p)
  clean : launch.pc.clean = true → descriptor = none
  withdrawing : launch.pc = .withdrawing → descriptor = none ∨ descriptor = some (.published p)
  ready : launch.pc.ready = true → launch.phase = .ready

def Inv (s : State) : Prop := ∀ p, LaunchOk s.lock s.descriptor p (s.launches p)

section
variable {lock lock' : Option Nat} {descriptor descriptor' : Option Descriptor} {p : Nat}
  {launch : Launch}

theorem owns_of_published {pc : Pc} (h : pc.published = true) : pc.owns = true := by
  cases pc <;> first | rfl | cases h

theorem ready_of_published {pc : Pc} (h : pc.published = true) : pc.ready = true := by
  cases pc with
  | starting step =>
    have hstep : step = .syncParent := of_decide_eq_true h
    subst hstep
    decide
  | running | cleaning => rfl
  | _ => cases h

theorem owns_of_clean {pc : Pc} (h : pc.clean = true) : pc.owns = true := by
  cases pc <;> first | rfl | cases h

/-- A launch without the lock has nothing to say about the descriptor. -/
theorem LaunchOk.without (h : LaunchOk lock descriptor p launch) (hlock : lock ≠ some p)
    (hlock' : lock' ≠ some p) : LaunchOk lock' descriptor' p launch := by
  have hno : ¬launch.Holds := fun hh => hlock (h.holds.1 hh)
  have howns : launch.pc.owns = false := by
    rw [← h.lease]
    exact Bool.eq_false_iff.2 fun hl => hno (.inl hl)
  have hnever : ∀ {P : Prop}, launch.pc.owns = true → P := fun ho => by
    rw [howns] at ho
    cases ho
  exact ⟨iff_of_false hno hlock', h.lease, fun hp => hnever (owns_of_published hp),
    fun hc => hnever (owns_of_clean hc), fun hw => hnever (by rw [hw]; rfl), h.ready⟩

/-- A step of a launch, seen by the others: they see none, or do not have the
lock before and after it. -/
theorem Inv.update {s : State} (h : Inv s) (hp : LaunchOk lock' descriptor' p launch)
    (hothers : (lock' = s.lock ∧ descriptor' = s.descriptor) ∨
      ∀ q, q ≠ p → s.lock ≠ some q ∧ lock' ≠ some q) :
    Inv ⟨Function.update s.launches p launch, lock', descriptor'⟩ := by
  intro q
  by_cases hq : q = p
  · subst hq
    show LaunchOk lock' descriptor' q (Function.update s.launches q launch q)
    rw [Function.update_self]
    exact hp
  · show LaunchOk lock' descriptor' q (Function.update s.launches p launch q)
    rw [Function.update_of_ne hq]
    rcases hothers with ⟨rfl, rfl⟩ | hothers
    · exact h q
    · exact (h q).without (hothers q hq).1 (hothers q hq).2

/-- A launch that has the lock keeps the others out. -/
theorem others_out (h : lock = some p) : ∀ q, q ≠ p → lock ≠ some q ∧ lock ≠ some q := by
  intro q hq
  rw [h]
  exact ⟨fun heq => hq (Option.some.inj heq).symm, fun heq => hq (Option.some.inj heq).symm⟩

end

/-! ## Every step keeps it -/

section
variable {lock : Option Nat} {descriptor : Option Descriptor} {p : Nat} {launch : Launch}

/-- A launch with the lock and nothing at stake goes anywhere with the lock. -/
theorem LaunchOk.goto (h : LaunchOk lock descriptor p launch) {pc : Pc}
    (howns : pc.owns = launch.pc.owns)
    (hpublished : pc.published = true → launch.pc.published = true)
    (hclean : pc.clean = true → launch.pc.clean = true)
    (hwithdrawing : pc = .withdrawing → descriptor = none ∨ descriptor = some (.published p))
    (hready : pc.ready = true → launch.pc.ready = true) :
    LaunchOk lock descriptor p { launch with pc } where
  holds := h.holds
  lease := h.lease.trans howns.symm
  published hp := h.published (hpublished hp)
  clean hc := h.clean (hclean hc)
  withdrawing := hwithdrawing
  ready hr := h.ready (hready hr)

theorem LaunchOk.lock_of_owns (h : LaunchOk lock descriptor p launch)
    (howns : launch.pc.owns = true) : lock = some p :=
  h.holds.1 (.inl (h.lease.trans howns))

/-- A step of the start succeeds. -/
theorem LaunchOk.done {step : StartupStep} (h : LaunchOk lock descriptor p launch)
    (hpc : launch.pc = .starting step) :
    LaunchOk lock (step.descriptor p descriptor) p
      { step.launch launch with pc := step.nextPc } := by
  have hlock : lock = some p := h.lock_of_owns (by rw [hpc]; rfl)
  have hlease : (step.launch launch).lease = true := by
    have hl : launch.lease = true := h.lease.trans (by rw [hpc]; rfl)
    cases step <;> exact hl
  have howns : step.nextPc.owns = true := by cases step <;> rfl
  refine ⟨iff_of_true (.inl hlease) hlock, hlease.trans howns.symm, fun hp => ?_, fun hc => ?_,
    fun hw => ?_, fun hr => ?_⟩
  · change step.nextPc.published = true at hp
    cases step <;> first
      | rfl
      | exact h.published (by rw [hpc]; rfl)
      | exact absurd hp (by decide)
  · change step.nextPc.clean = true at hc
    cases step <;> first
      | rfl
      | exact h.clean (by rw [hpc]; decide)
      | exact absurd hc (by decide)
  · cases step <;> cases hw
  · change step.nextPc.ready = true at hr
    cases step <;> first
      | rfl
      | exact h.ready (by rw [hpc]; decide)
      | exact absurd hr (by decide)

/-- What `close` leaves of the lock. -/
theorem LaunchOk.close {pc : Pc} {lease keepalive : Bool} (h : LaunchOk lock descriptor p launch)
    (hlease : lease = true → launch.lease = true)
    (hkeepalive : keepalive = true → launch.keepalive = true) (howns : lease = pc.owns)
    (hpublished : pc.published = true → launch.pc.published = true)
    (hclean : pc.clean = true → launch.pc.clean = true)
    (hwithdrawing : pc = .withdrawing → launch.pc = .withdrawing)
    (hready : pc.ready = true → launch.pc.ready = true) :
    LaunchOk (if lease || keepalive || lock ≠ some p then lock else none) descriptor p
      { launch with pc, lease, keepalive } where
  holds := by
    show lease = true ∨ keepalive = true ↔ _
    have hheld : lease = true ∨ keepalive = true → lock = some p := fun hh =>
      h.holds.1 (hh.imp hlease hkeepalive)
    cases lease <;> cases keepalive <;> by_cases hlock : lock = some p <;>
      simp_all
  lease := howns
  published hp := h.published (hpublished hp)
  clean hc := h.clean (hclean hc)
  withdrawing hw := h.withdrawing (hwithdrawing hw)
  ready hr := h.ready (hready hr)

end

theorem inv_init {s : State} (h : Initial s) : Inv s := by
  obtain ⟨hlaunches, hlock, -⟩ := h
  intro p
  rw [hlaunches p, hlock]
  exact ⟨iff_of_false (by rintro (h | h) <;> cases h) nofun, rfl, nofun, nofun, nofun, nofun⟩

section
variable {s : State} {p : Nat}

theorem Inv.goto (h : Inv s) {pc : Pc} (howns : pc.owns = (s.launches p).pc.owns)
    (hpublished : pc.published = true → (s.launches p).pc.published = true)
    (hclean : pc.clean = true → (s.launches p).pc.clean = true)
    (hwithdrawing : pc = .withdrawing → s.descriptor = none ∨ s.descriptor = some (.published p))
    (hready : pc.ready = true → (s.launches p).pc.ready = true) :
    Inv (SingleInstance.goto s p pc) :=
  h.update ((h p).goto howns hpublished hclean hwithdrawing hready) (.inl ⟨rfl, rfl⟩)

/-- The start is given up. -/
theorem Inv.unwind (h : Inv s) (howns : (s.launches p).pc.owns = true) :
    Inv (SingleInstance.goto s p .unwinding) :=
  h.goto howns.symm nofun nofun nofun nofun

theorem Inv.done {step : StartupStep} (h : Inv s) (hpc : (s.launches p).pc = .starting step) :
    Inv (SingleInstance.done s p step) :=
  h.update ((h p).done hpc) (.inr (others_out ((h p).lock_of_owns (by rw [hpc]; rfl))))

theorem Inv.close (h : Inv s) {pc : Pc} {lease keepalive : Bool}
    (hlease : lease = true → (s.launches p).lease = true)
    (hkeepalive : keepalive = true → (s.launches p).keepalive = true) (howns : lease = pc.owns)
    (hpublished : pc.published = true → (s.launches p).pc.published = true)
    (hclean : pc.clean = true → (s.launches p).pc.clean = true)
    (hwithdrawing : pc = .withdrawing → (s.launches p).pc = .withdrawing)
    (hready : pc.ready = true → (s.launches p).pc.ready = true) :
    Inv (s.close p { s.launches p with pc, lease, keepalive }) := by
  refine h.update
    ((h p).close hlease hkeepalive howns hpublished hclean hwithdrawing hready) ?_
  by_cases hlock : s.lock = some p
  · refine .inr fun q hq => ⟨(others_out hlock q hq).1, ?_⟩
    show (if _ then s.lock else none) ≠ some q
    split
    · exact (others_out hlock q hq).1
    · nofun
  · refine .inl ⟨?_, rfl⟩
    simp [hlock]

/-- `publish` fails: nothing is there yet, or the own descriptor. -/
theorem Inv.withdraw {step : StartupStep} (h : Inv s) (hpc : (s.launches p).pc = .starting step)
    (hstep : step.isPublish = true) : Inv (SingleInstance.goto s p .withdrawing) := by
  refine h.goto (by rw [hpc]; rfl) nofun nofun (fun _ => ?_) (fun _ => ?_)
  · have hclean := (h p).clean
    have hpublished := (h p).published
    rw [hpc] at hclean hpublished
    cases step with
    | writeTemporary | replace => exact .inl (hclean (by decide))
    | syncParent => exact .inr (hpublished rfl)
    | _ => cases hstep
  · rw [hpc]
    cases step with
    | writeTemporary | replace | syncParent => decide
    | _ => cases hstep

/-- A removal by the owner of the lock, after which it has nothing published. -/
theorem Inv.remove (h : Inv s) {pc : Pc} (removed : Bool) (howns : (s.launches p).pc.owns = true)
    (hpc : pc = .unwinding ∨ pc = .cleaned) :
    Inv (SingleInstance.goto (s.remove removed) p pc) := by
  have hlock := (h p).lock_of_owns howns
  refine h.update ?_ (.inr (others_out hlock))
  have hlease : (s.launches p).lease = true := (h p).lease.trans howns
  rcases hpc with rfl | rfl
  · exact ⟨(h p).holds, hlease, nofun, nofun, nofun, nofun⟩
  · exact ⟨(h p).holds, hlease, nofun, nofun, nofun, nofun⟩

theorem Inv.acquire (h : Inv s) (hlock : s.lock = none) :
    Inv ({ s with lock := some p }.set p
      { s.launches p with pc := .starting .harden, lease := true }) := by
  refine h.update ⟨iff_of_true (.inl rfl) rfl, rfl, nofun, nofun, nofun, nofun⟩ (.inr fun q hq => ?_)
  rw [hlock]
  exact ⟨nofun, (others_out rfl q hq).1⟩

end

/-- One step of any launch. -/
theorem inv_step {s s' : State} {l : Label} (h : Inv s) (hs : next s l = some s') : Inv s' := by
  cases l with
  | prepare p =>
    simp only [next, Option.ite_none_right_eq_some, Option.some.injEq] at hs
    obtain ⟨hpc, rfl⟩ := hs
    exact h.goto (by rw [hpc]; rfl) nofun nofun nofun nofun
  | tryAcquire p =>
    simp only [next, Option.ite_none_right_eq_some, Option.some.injEq] at hs
    obtain ⟨hpc, rfl⟩ := hs
    split
    · exact h.acquire ‹_›
    · exact h.goto (by rw [hpc]; rfl) nofun nofun nofun nofun
  | done p step =>
    simp only [next, Option.ite_none_right_eq_some, Option.some.injEq] at hs
    obtain ⟨⟨hpc, -⟩, rfl⟩ := hs
    exact h.done hpc
  | probed p response =>
    simp only [next, Option.ite_none_right_eq_some, Option.some.injEq] at hs
    obtain ⟨hpc, rfl⟩ := hs
    split
    · exact h.done hpc
    · exact h.unwind (by rw [hpc]; rfl)
  | fail p =>
    simp only [next] at hs
    split at hs
    · rename_i hpc
      cases hs
      exact h.goto (by rw [hpc]; rfl) nofun nofun nofun nofun
    · rename_i hpc
      cases hs
      exact h.goto (by rw [hpc]; rfl) nofun nofun nofun nofun
    · rename_i step hpc
      cases hs
      split
      · exact h.withdraw hpc ‹_›
      · exact h.unwind (by rw [hpc]; rfl)
    · cases hs
  | abandon p =>
    simp only [next] at hs
    split at hs
    · rename_i hpc
      cases hs
      exact h.unwind (by rw [hpc]; rfl)
    · cases hs
  | withdraw p removed =>
    simp only [next, Option.ite_none_right_eq_some, Option.some.injEq] at hs
    obtain ⟨hpc, rfl⟩ := hs
    exact h.remove removed (by rw [hpc]; rfl) (.inl rfl)
  | dropLock p =>
    simp only [next, Option.ite_none_right_eq_some, Option.some.injEq] at hs
    obtain ⟨hpc, rfl⟩ := hs
    exact h.close nofun id rfl nofun nofun nofun nofun
  | serverEnds p =>
    simp only [next, Option.ite_none_right_eq_some, Option.some.injEq] at hs
    obtain ⟨-, rfl⟩ := hs
    exact h.close id nofun (h p).lease id id id id
  | forceCleanup p =>
    simp only [next] at hs
    split at hs
    · rename_i hpc
      cases hs
      exact h.goto (by rw [hpc]; rfl) (fun _ => by rw [hpc]; rfl) nofun nofun
        (fun _ => by rw [hpc]; rfl)
    · cases hs
      exact h
    · cases hs
      exact h
    · cases hs
  | removeDescriptor p removed =>
    simp only [next, Option.ite_none_right_eq_some, Option.some.injEq] at hs
    obtain ⟨hpc, rfl⟩ := hs
    exact h.remove removed (by rw [hpc]; rfl) (.inr rfl)
  | releaseLock p =>
    simp only [next, Option.ite_none_right_eq_some, Option.some.injEq] at hs
    obtain ⟨hpc, rfl⟩ := hs
    exact h.close nofun id rfl nofun nofun nofun nofun
  | crash p =>
    simp only [next, Option.some.injEq] at hs
    subst hs
    exact h.close nofun nofun rfl nofun nofun nofun nofun

theorem inv_inductive : instances.Inductive Inv where
  init _ := inv_init
  step _ _ _ := inv_step

/-! ## What a run has seen -/

/-- The step of a start that a label completes. -/
def Label.completes : Label → Option (Nat × StartupStep)
  | .done p step => some (p, step)
  | .probed p response => if accepts p response then some (p, .probe) else none
  | _ => none

theorem StartupStep.before_next {step step' : StartupStep} (h : step.next = some step') :
    step'.before = step.before ++ [step] := by
  cases step <;> cases h <;> rfl

theorem next_of_nextPc {step step' : StartupStep} (h : step.nextPc = .starting step') :
    step.next = some step' := by
  unfold StartupStep.nextPc at h
  split at h
  · cases h
    assumption
  · cases h

section
variable {s s' : State} {p q : Nat} {step : StartupStep}

theorem pc_update {launch : Launch} {lock : Option Nat} {descriptor : Option Descriptor}
    (h : ((⟨Function.update s.launches p launch, lock, descriptor⟩ : State).launches q).pc =
      .starting step) :
    (s.launches q).pc = .starting step ∨ q = p ∧ launch.pc = .starting step := by
  change (Function.update s.launches p launch q).pc = .starting step at h
  by_cases hq : q = p
  · subst hq
    rw [Function.update_self] at h
    exact .inr ⟨rfl, h⟩
  · rw [Function.update_of_ne hq] at h
    exact .inl h

/-- How a launch comes to a step of its start. -/
theorem starting_step {l : Label} (hs : next s l = some s')
    (hq : (s'.launches q).pc = .starting step) :
    (s.launches q).pc = .starting step ∨ step = .harden ∨
      ∃ prev, (s.launches q).pc = .starting prev ∧ prev.next = some step ∧
        l.completes = some (q, prev) := by
  cases l with
  | prepare p | withdraw p | dropLock p | removeDescriptor p | releaseLock p =>
    simp only [next, Option.ite_none_right_eq_some, Option.some.injEq] at hs
    obtain ⟨-, rfl⟩ := hs
    rcases pc_update hq with h | ⟨-, h⟩
    · exact .inl h
    · cases h
  | tryAcquire p =>
    simp only [next, Option.ite_none_right_eq_some, Option.some.injEq] at hs
    obtain ⟨-, rfl⟩ := hs
    split at hq
    · rcases pc_update (s := { s with lock := some p }) hq with h | ⟨-, h⟩
      · exact .inl h
      · cases h
        exact .inr (.inl rfl)
    · rcases pc_update hq with h | ⟨-, h⟩
      · exact .inl h
      · cases h
  | done p prev =>
    simp only [next, Option.ite_none_right_eq_some, Option.some.injEq] at hs
    obtain ⟨⟨hpc, -⟩, rfl⟩ := hs
    rcases pc_update (s := { s with descriptor := _ }) hq with h | ⟨rfl, h⟩
    · exact .inl h
    · exact .inr (.inr ⟨prev, hpc, next_of_nextPc h, rfl⟩)
  | probed p response =>
    simp only [next, Option.ite_none_right_eq_some, Option.some.injEq] at hs
    obtain ⟨hpc, rfl⟩ := hs
    split at hq
    · rename_i haccepts
      rcases pc_update (s := { s with descriptor := _ }) hq with h | ⟨rfl, h⟩
      · exact .inl h
      · exact .inr (.inr ⟨.probe, hpc, next_of_nextPc h, if_pos haccepts⟩)
    · rcases pc_update hq with h | ⟨-, h⟩
      · exact .inl h
      · cases h
  | fail p =>
    simp only [next] at hs
    split at hs
    · cases hs
      rcases pc_update hq with h | ⟨-, h⟩
      · exact .inl h
      · cases h
    · cases hs
      rcases pc_update hq with h | ⟨-, h⟩
      · exact .inl h
      · cases h
    · cases hs
      rcases pc_update hq with h | ⟨-, h⟩
      · exact .inl h
      · change (if _ then Pc.withdrawing else Pc.unwinding) = _ at h
        split at h <;> cases h
    · cases hs
  | abandon p =>
    simp only [next] at hs
    split at hs
    · cases hs
      rcases pc_update hq with h | ⟨-, h⟩
      · exact .inl h
      · cases h
    · cases hs
  | serverEnds p =>
    simp only [next, Option.ite_none_right_eq_some, Option.some.injEq] at hs
    obtain ⟨-, rfl⟩ := hs
    rcases pc_update hq with h | ⟨rfl, h⟩
    · exact .inl h
    · exact .inl h
  | forceCleanup p =>
    simp only [next] at hs
    split at hs
    · cases hs
      rcases pc_update hq with h | ⟨-, h⟩
      · exact .inl h
      · cases h
    · cases hs
      exact .inl hq
    · cases hs
      exact .inl hq
    · cases hs
  | crash p =>
    simp only [next, Option.some.injEq] at hs
    subst hs
    rcases pc_update hq with h | ⟨-, h⟩
    · exact .inl h
    · cases h

/-- Every step before the current one of a start has been completed, in order. -/
def Ordered (ls : List Label) (s : State) : Prop := ∀ p step, (s.launches p).pc = .starting step →
  (step.before.map (p, ·)).Sublist (ls.filterMap Label.completes)

theorem ordered_step {ls : List Label} {l : Label} (h : Ordered ls s) (hs : next s l = some s') :
    Ordered (ls ++ [l]) s' := by
  intro q step hq
  rw [List.filterMap_append]
  rcases starting_step hs hq with hq | rfl | ⟨prev, hq, hprev, hl⟩
  · exact (h q step hq).trans (List.sublist_append_left _ _)
  · exact List.nil_sublist _
  · rw [StartupStep.before_next hprev, List.map_append]
    refine (h q prev hq).append ?_
    rw [List.filterMap_cons_some hl]
    exact List.Sublist.refl _

theorem run_ordered {s₀ : State} {ls : List Label} (hi : Initial s₀)
    (hrun : instances.Run s₀ ls s) : Ordered ls s := by
  refine hrun.history (P := Ordered) (fun p step hp => ?_) fun _ _ _ _ h hs => ordered_step h hs
  rw [hi.1 p] at hp
  cases hp

end

/-! ## Single instance -/

section
variable {s s' : State} {p : Nat} {l : Label}

/-- What removes a file at the descriptor's path after `publish`. -/
def Label.removes : Label → Option Nat
  | .withdraw p _ | .removeDescriptor p _ => some p
  | _ => none

/-- What ends a launch that has published. -/
def Label.ends : Label → Option Nat
  | .fail p | .abandon p | .removeDescriptor p _ | .crash p => some p
  | _ => none

/-- Nobody else touches the descriptor, and who does has the lock. -/
theorem touches_step (h : Inv s) (hs : next s l = some s') :
    (l.touches = none → s'.descriptor = s.descriptor) ∧
      ∀ p, l.touches = some p → s.lock = some p := by
  cases l with
  | prepare p | dropLock p | releaseLock p | serverEnds p =>
    simp only [next, Option.ite_none_right_eq_some, Option.some.injEq] at hs
    obtain ⟨-, rfl⟩ := hs
    exact ⟨fun _ => rfl, nofun⟩
  | tryAcquire p =>
    simp only [next, Option.ite_none_right_eq_some, Option.some.injEq] at hs
    obtain ⟨-, rfl⟩ := hs
    refine ⟨fun _ => ?_, nofun⟩
    split <;> rfl
  | done p step =>
    simp only [next, Option.ite_none_right_eq_some, Option.some.injEq] at hs
    obtain ⟨⟨hpc, -⟩, rfl⟩ := hs
    have hlock : s.lock = some p := (h p).lock_of_owns (by rw [hpc]; rfl)
    constructor
    · intro hl
      cases step <;> first | rfl | cases hl
    · intro q hl
      cases step <;> cases hl <;> exact hlock
  | probed p response =>
    simp only [next, Option.ite_none_right_eq_some, Option.some.injEq] at hs
    obtain ⟨-, rfl⟩ := hs
    refine ⟨fun _ => ?_, nofun⟩
    split <;> rfl
  | fail p | abandon p | forceCleanup p =>
    simp only [next] at hs
    refine ⟨fun _ => ?_, nofun⟩
    split at hs <;> cases hs <;> rfl
  | withdraw p removed | removeDescriptor p removed =>
    simp only [next, Option.ite_none_right_eq_some, Option.some.injEq] at hs
    obtain ⟨hpc, rfl⟩ := hs
    refine ⟨nofun, fun q hl => ?_⟩
    cases hl
    exact (h p).lock_of_owns (by rw [hpc]; rfl)
  | crash p =>
    simp only [next, Option.some.injEq] at hs
    subst hs
    exact ⟨fun _ => rfl, nofun⟩

/-- A removal finds the remover's own descriptor, or none. -/
theorem removes_step (h : Inv s) (hs : next s l = some s') (hl : l.removes = some p) :
    s.descriptor = none ∨ s.descriptor = some (.published p) := by
  cases l with
  | withdraw q removed =>
    cases hl
    simp only [next, Option.ite_none_right_eq_some] at hs
    exact (h p).withdrawing hs.1
  | removeDescriptor q removed =>
    cases hl
    simp only [next, Option.ite_none_right_eq_some] at hs
    exact .inr ((h p).published (by rw [hs.1]; rfl))
  | _ => cases hl

theorem published_update {q : Nat} {launch : Launch} {lock : Option Nat}
    {descriptor : Option Descriptor} (h : s.Published q)
    (hp : q = p → (s.launches p).pc.published = true → launch.pc.published = true) :
    State.Published ⟨Function.update s.launches p launch, lock, descriptor⟩ q := by
  show (Function.update s.launches p launch q).pc.published = true
  by_cases hq : q = p
  · subst hq
    rw [Function.update_self]
    exact hp rfl h
  · rw [Function.update_of_ne hq]
    exact h

/-- What has been published stays, up to the end of the launch. -/
theorem published_step (hs : next s l = some s') (hp : s.Published p) (hl : l.ends ≠ some p) :
    s'.Published p := by
  cases l with
  | prepare q | withdraw q | dropLock q | releaseLock q | probed q =>
    simp only [next, Option.ite_none_right_eq_some, Option.some.injEq] at hs
    obtain ⟨hpc, rfl⟩ := hs
    try split
    all_goals
      refine published_update (s := s) hp fun _ hpub => ?_
      rw [hpc] at hpub
      cases hpub
  | tryAcquire q =>
    simp only [next, Option.ite_none_right_eq_some, Option.some.injEq] at hs
    obtain ⟨hpc, rfl⟩ := hs
    split <;> refine published_update (s := s) hp fun _ hpub => ?_ <;> rw [hpc] at hpub <;>
      cases hpub
  | done q step =>
    simp only [next, Option.ite_none_right_eq_some, Option.some.injEq] at hs
    obtain ⟨⟨hpc, -⟩, rfl⟩ := hs
    refine published_update (s := s) hp fun _ hpub => ?_
    rw [hpc] at hpub
    have hstep : step = .syncParent := of_decide_eq_true hpub
    subst hstep
    rfl
  | serverEnds q =>
    simp only [next, Option.ite_none_right_eq_some, Option.some.injEq] at hs
    obtain ⟨-, rfl⟩ := hs
    exact published_update (s := s) hp fun _ hpub => hpub
  | forceCleanup q =>
    simp only [next] at hs
    split at hs
    · cases hs
      exact published_update (s := s) hp fun _ _ => rfl
    · cases hs
      exact hp
    · cases hs
      exact hp
    · cases hs
  | fail q | abandon q | removeDescriptor q | crash q =>
    have hq : p ≠ q := fun h => hl (by rw [h]; rfl)
    simp only [next] at hs
    try split at hs
    all_goals first
      | cases hs
        exact published_update (s := s) hp fun h => absurd h hq
      | cases hs

/-- `atomic_replace` publishes. -/
theorem replace_step (hs : next s (.done p .replace) = some s') : s'.Published p := by
  simp only [next, Option.ite_none_right_eq_some, Option.some.injEq] at hs
  obtain ⟨-, rfl⟩ := hs
  show (Function.update s.launches p _ p).pc.published = true
  rw [Function.update_self]
  rfl

end

/-- **One instance at a time.** In every state that launches, failures,
shutdowns and crashes can lead to: at most one launch has the lock; a launch
that has published is ready, and the descriptor is its own, until it fails,
crashes or removes it; the descriptor is changed by none but the owner of the
lock, and removed after a `publish` only where it is one's own. Before
`atomic_replace`, recovery, the probe and `mark_ready` have been completed. -/
theorem single_instance :
    (∀ s, instances.Reachable s →
      (∀ p q, (s.launches p).Holds → (s.launches q).Holds → p = q) ∧
      (∀ p, s.Published p →
        s.descriptor = some (.published p) ∧ (s.launches p).phase = .ready ∧
          (s.launches p).Holds) ∧
      ∀ l s', instances.step s l s' →
        (l.touches = none → s'.descriptor = s.descriptor) ∧
        (∀ p, l.touches = some p → (s.launches p).Holds) ∧
        (∀ p, l.removes = some p →
          s.descriptor = none ∨ s.descriptor = some (.published p)) ∧
        (∀ p, s.Published p → l.ends ≠ some p → s'.Published p) ∧
        (∀ p, l = .done p .replace → s'.Published p)) ∧
    ∀ s₀ ls s, Initial s₀ → instances.Run s₀ ls s → ∀ p s',
      instances.step s (.done p .replace) s' →
      [(p, .recover), (p, .probe), (p, .markReady)].Sublist (ls.filterMap Label.completes) := by
  refine ⟨fun s hr => ?_, fun s₀ ls s hi hrun p s' hs => ?_⟩
  · have hinv : Inv s := inv_inductive.reachable s hr
    refine ⟨fun p q hp hq => ?_, fun p hp => ?_, fun l s' hs => ?_⟩
    · have hlock : some p = some q := ((hinv p).holds.1 hp).symm.trans ((hinv q).holds.1 hq)
      exact Option.some.inj hlock
    · have howns : (s.launches p).pc.owns = true := owns_of_published hp
      exact ⟨(hinv p).published hp, (hinv p).ready (ready_of_published hp),
        .inl ((hinv p).lease.trans howns)⟩
    · obtain ⟨hsame, howner⟩ := touches_step hinv hs
      refine ⟨hsame, fun p hl => (hinv p).holds.2 (howner p hl),
        fun p hl => removes_step hinv hs hl, fun p hp hl => published_step hs hp hl, ?_⟩
      rintro p rfl
      exact replace_step hs
  · change next s (.done p .replace) = some s' at hs
    have hpc : (s.launches p).pc = .starting .replace := by
      simp only [next, Option.ite_none_right_eq_some] at hs
      exact hs.1.1
    have hordered := run_ordered hi hrun p .replace hpc
    refine List.Sublist.trans ?_ hordered
    exact List.Sublist.map (p, ·) (show [StartupStep.recover, .probe, .markReady].Sublist _ by decide)

/-- A start in which every step succeeds. -/
def started (p : Nat) : List Label :=
  [.prepare p, .tryAcquire p] ++ StartupStep.order.map fun step =>
    if step = .probe then .probed p (some (200, ⟨p, .starting⟩)) else .done p step

/-- A launch that found somebody's descriptor, started and was shut down, and
the next one. -/
def handover : List Label :=
  started 0 ++ [.forceCleanup 0, .removeDescriptor 0 true, .releaseLock 0, .serverEnds 0] ++
    started 1

theorem single_instance_sample :
    ∃ s, LTS.exec next ⟨fun _ => .new, none, some .leftover⟩ handover = some s ∧
      s.Published 1 ∧ s.descriptor = some (.published 1) := by
  have hrun : ((LTS.exec next ⟨fun _ => .new, none, some .leftover⟩ handover).map
      fun s => (s.launches 1).pc) = some .running := by decide +kernel
  obtain ⟨s, hs, hpc⟩ := Option.map_eq_some_iff.1 hrun
  have hp : s.Published 1 := by
    show (s.launches 1).pc.published = true
    rw [hpc]
    rfl
  have hr : instances.Reachable s :=
    LTS.reachable_of_exec (show Initial ⟨_, none, some .leftover⟩ from
      ⟨fun _ => rfl, rfl, nofun⟩) hs
  exact ⟨s, hs, hp, ((single_instance.1 s hr).2.1 1 hp).1⟩

end CodingAgent.L4.App.SingleInstance
