import Mathlib.Data.List.Basic

/-!
# The service state (`coding-agent-app/src/service_state.rs`)

The state a running service shows to its handlers and clients, with a
generation that counts its changes. `Quiescing` is final.
-/
namespace CodingAgent.L1.Domain

/-- mirrors crates/coding-agent-app/src/service_state.rs:5-10 -/
inductive ServiceState where
  | ready
  | storeDegraded
  | quiescing
  deriving DecidableEq, Repr

/-- mirrors crates/coding-agent-app/src/service_state.rs:12-16 -/
structure ServiceStateSnapshot where
  state : ServiceState
  generation : Nat
  deriving DecidableEq, Repr

/-- mirrors crates/coding-agent-app/src/service_state.rs:18-23 -/
structure InvalidServiceTransition where
  source : ServiceState
  target : ServiceState
  deriving DecidableEq, Repr

namespace ServiceStateSnapshot

/-- `ServiceStateController::new`. -/
def new (initial : ServiceState) : ServiceStateSnapshot := ⟨initial, 0⟩

/-- `ServiceStateController::set`; the mutex makes it one step.
mirrors crates/coding-agent-app/src/service_state.rs:55-84 -/
def set (current : ServiceStateSnapshot) (next : ServiceState) :
    Except InvalidServiceTransition ServiceStateSnapshot :=
  if current.state = next then .ok current
  else if current.state = .quiescing then .error ⟨current.state, next⟩
  else .ok ⟨next, current.generation + 1⟩

/-- The snapshot after `set`, whether or not it succeeds. -/
def after (current : ServiceStateSnapshot) (next : ServiceState) : ServiceStateSnapshot :=
  match current.set next with
  | .ok snapshot => snapshot
  | .error _ => current

theorem after_state (current : ServiceStateSnapshot) (next : ServiceState) :
    (current.after next).state = if current.state = .quiescing then .quiescing else next := by
  obtain ⟨state, generation⟩ := current
  cases state <;> cases next <;> rfl

end ServiceStateSnapshot

end CodingAgent.L1.Domain
