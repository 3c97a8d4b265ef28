import Mathlib.Data.List.Chain
import CodingAgent.Core.Traced
import CodingAgent.L4App.Primary

/-!
# The writer of the store (`coding-agent-app/src/store_writer.rs`)

`execute` with its retries and deadline, and `run_writer` over the commands it
receives. What the writer calls is a `World` with any state: the clock, the
timer, the backend with any results, the wake and the channel of a response.
The clock and the timer are `Lawful`; nothing is assumed of the rest. An
attempt commits where its result is `Ok`.

* `RetryRun`: the runs of `execute`, one constructor for each way it ends an
  attempt; `execute_run` says the code has no other.
* `writer_retry_law`: how often and when an operation is attempted, what is
  returned, and which commands are answered and announced.
* `execute_onStore`: over the store, the retries are one execution of the
  operation, as the writer of the primary has it.
-/
namespace CodingAgent.L4.App.StoreWriter
open CodingAgent.L1.Domain CodingAgent.L2.Store

/-- `Duration::from_millis`; instants and durations are in nanoseconds. -/
def fromMillis (n : Nat) : Nat := n * 1000000

/-- mirrors crates/coding-agent-app/src/store_writer.rs:36-44 -/
inductive StoreWriterError where
  | busy
  | store (error : StoreError)
  | closed
  deriving DecidableEq, Repr

/-- mirrors crates/coding-agent-app/src/store_writer.rs:30-34 -/
structure WriteReceipt (α : Type) where
  value : α
  eventId : Option EventId
  deriving DecidableEq, Repr

/-- A command, its kind that of its operation.
mirrors crates/coding-agent-app/src/store_writer.rs:592-628 -/
structure WriteCommand where
  operation : StoreWriterOperation
  deadline : Nat
  deriving DecidableEq, Repr

abbrev Written := Except StoreWriterError StoreWriterOperationOutcome

/-- What the requester of a command receives. -/
inductive Response where
  | registerRepository (result : Except StoreWriterError (WriteReceipt RegisterRepositoryOutcome))
  | createTask (result : Except StoreWriterError (WriteReceipt CreateTaskOutcome))
  | retryTask (result : Except StoreWriterError (WriteReceipt RetryTaskOutcome))
  | transitionWithEvent (result : Except StoreWriterError (WriteReceipt TransitionOutcome))
  | appendRunningEvent (result : Except StoreWriterError (WriteReceipt AppendEventOutcome))
  | recoverIncomplete (result : Except StoreWriterError (WriteReceipt RecoveryOutcome))
  deriving DecidableEq

/-- The event id of a receipt. -/
def Response.eventId? : Response → Option EventId
  | .registerRepository (.ok receipt) => receipt.eventId
  | .createTask (.ok receipt) => receipt.eventId
  | .retryTask (.ok receipt) => receipt.eventId
  | .transitionWithEvent (.ok receipt) => receipt.eventId
  | .appendRunningEvent (.ok receipt) => receipt.eventId
  | .recoverIncomplete (.ok receipt) => receipt.eventId
  | _ => none

/-- One call of the backend: when it started and ended, and its result. -/
structure Attempt where
  operation : StoreWriterOperation
  started : Nat
  finished : Nat
  result : Written
  deriving DecidableEq

def Attempt.committed (a : Attempt) : Bool := a.result.isOk

/-- What the writer does to the world. -/
inductive Effect where
  | clock (reading : Nat)
  | attempt (a : Attempt)
  | sleep (target : Nat)
  | wake (panicked : Bool)
  | respond (response : Response) (delivered : Bool)
  deriving DecidableEq

/-- What the writer calls: each call on the state of the world, and `time`, the
time at a state. -/
structure World (σ : Type) where
  time : σ → Nat
  /-- `Instant::now()` -/
  now : σ → Nat × σ
  sleepUntil : Nat → σ → σ
  backend : StoreWriterOperation → σ → Written × σ
  /-- whether it panicked -/
  wake : σ → Bool × σ
  /-- whether the requester was still there -/
  send : Response → σ → Bool × σ

namespace World
variable {σ : Type} (world : World σ)

/-- A reading is of its time, and a sleep lasts until its target. -/
structure Lawful : Prop where
  now_after : ∀ s, world.time s ≤ (world.now s).1
  now_before : ∀ s, (world.now s).1 ≤ world.time (world.now s).2
  sleepUntil : ∀ target s, target ≤ world.time (world.sleepUntil target s)

def readClock : Traced Effect σ Nat := fun s =>
  let (reading, s) := world.now s
  { value := reading, trace := [.clock reading], state := s }

def sleep (target : Nat) : Traced Effect σ Unit := fun s =>
  { value := (), trace := [.sleep target], state := world.sleepUntil target s }

def attempt (operation : StoreWriterOperation) : Traced Effect σ Written := fun s =>
  let (result, after) := world.backend operation s
  { value := result
    trace := [.attempt { operation, started := world.time s, finished := world.time after, result }]
    state := after }

/-- A panic is caught. -/
def wakeUp : Traced Effect σ Unit := fun s =>
  let (panicked, s) := world.wake s
  { value := (), trace := [.wake panicked], state := s }

/-- `let _ = response.send(result)` -/
def respond (response : Response) : Traced Effect σ Unit := fun s =>
  let (delivered, s) := world.send response s
  { value := (), trace := [.respond response delivered], state := s }

end World

/-! ## `execute` -/

/-- mirrors crates/coding-agent-app/src/store_writer.rs:18-24 -/
def retryDelays : List Nat := [25, 50, 100, 200, 400].map fromMillis

section
variable {σ : Type} (world : World σ)

/-- The loop, with the delays that are not used up.
mirrors crates/coding-agent-app/src/store_writer.rs:766-786 -/
def retryLoop (operation : StoreWriterOperation) (deadline : Nat) :
    List Nat → Traced Effect σ Written
  | [] => world.attempt operation
  | delay :: delays => do
    match ← world.attempt operation with
    | .error .busy =>
      let now ← world.readClock
      if deadline ≤ now then return .error .busy
      else
        let retryAt := now + delay
        if deadline ≤ retryAt then
          world.sleep deadline
          return .error .busy
        else
          world.sleep retryAt
          let now ← world.readClock
          if deadline ≤ now then return .error .busy
          else retryLoop operation deadline delays
    | result => return result

/-- mirrors crates/coding-agent-app/src/store_writer.rs:756-787 -/
def execute (operation : StoreWriterOperation) (deadline : Nat) :
    Traced Effect σ Written := do
  let now ← world.readClock
  if deadline ≤ now then return .error .busy
  else retryLoop world operation deadline retryDelays

/-! ## `run_writer` -/

/-- mirrors crates/coding-agent-app/src/store_writer.rs:821-825 -/
def unexpectedOutcome : StoreWriterError :=
  .store (.invariantViolation "store writer backend returned a mismatched outcome")

/-- mirrors crates/coding-agent-app/src/store_writer.rs:827-879 -/
def expectRepository : StoreWriterOperationOutcome → Except StoreWriterError RegisterRepositoryOutcome
  | .registerRepository value => .ok value
  | _ => .error unexpectedOutcome

def expectCreate : StoreWriterOperationOutcome → Except StoreWriterError CreateTaskOutcome
  | .task (.create value) => .ok value
  | _ => .error unexpectedOutcome

def expectRetry : StoreWriterOperationOutcome → Except StoreWriterError RetryTaskOutcome
  | .task (.retry value) => .ok value
  | _ => .error unexpectedOutcome

def expectTransition : StoreWriterOperationOutcome → Except StoreWriterError TransitionOutcome
  | .task (.transition value) => .ok value
  | _ => .error unexpectedOutcome

def expectAppend : StoreWriterOperationOutcome → Except StoreWriterError AppendEventOutcome
  | .task (.append value) => .ok value
  | _ => .error unexpectedOutcome

def expectRecovery : StoreWriterOperationOutcome → Except StoreWriterError RecoveryOutcome
  | .task (.recovery value) => .ok value
  | _ => .error unexpectedOutcome

/-- mirrors crates/coding-agent-app/src/store_writer.rs:795-804 -/
def receiptAndWake {α : Type} (value : α) (eventId : Option EventId) :
    Traced Effect σ (WriteReceipt α) := do
  if eventId.isSome then world.wakeUp
  return { value, eventId }

/-- `execute(…).await.and_then(expect).map(|value| receipt_and_wake(…))` -/
def write {α : Type} (command : WriteCommand)
    (expect : StoreWriterOperationOutcome → Except StoreWriterError α)
    (eventId : α → Option EventId) : Traced Effect σ (Except StoreWriterError (WriteReceipt α)) := do
  match (← execute world command.operation command.deadline).bind expect with
  | .error error => return .error error
  | .ok value => return .ok (← receiptAndWake world value (eventId value))

/-- One arm for each kind of command. A registration has no event: its receipt
is made without the wake, as `receiptAndWake` does without an event id.
mirrors crates/coding-agent-app/src/store_writer.rs:636-752 -/
def perform (command : WriteCommand) : Traced Effect σ Response :=
  match command.operation with
  | .registerRepository _ =>
    Response.registerRepository <$> write world command expectRepository fun _ => none
  | .task (.createTask _) =>
    Response.createTask <$> write world command expectCreate fun
      | .created _ eventId => some eventId
      | .existing _ => none
  | .task (.retryTask _) =>
    Response.retryTask <$> write world command expectRetry fun
      | .created _ eventId => some eventId
      | .existing _ => none
  | .task (.transitionWithEvent _ _ _) =>
    Response.transitionWithEvent <$> write world command expectTransition fun
      | .applied _ eventId => some eventId
      | .conflict _ => none
  | .task (.appendRunningEvent _ _) =>
    Response.appendRunningEvent <$> write world command expectAppend fun
      | .applied eventId => some eventId
      | .notRunning _ => none
  | .task (.recoverIncomplete _ _) =>
    Response.recoverIncomplete <$> write world command expectRecovery (·.lastEventId)

/-- The commands are received in the order they were sent.
mirrors crates/coding-agent-app/src/store_writer.rs:630-754 -/
def runWriter (commands : List WriteCommand) : Traced Effect σ Unit :=
  Traced.forEach (fun command => do world.respond (← perform world command)) commands

/-! ## The runs of the loop -/

/-- A clock reading or a sleep. -/
def Effect.isPause : Effect → Bool
  | .clock _ | .sleep _ => true
  | .attempt _ | .wake _ | .respond _ _ => false

def Effect.attempt? : Effect → Option Attempt
  | .attempt a => some a
  | .clock _ | .sleep _ | .wake _ | .respond _ _ => none

def attempts (trace : List Effect) : List Attempt := trace.filterMap (·.attempt?)

/-- Clock readings and sleeps. -/
def Paused (world : World σ) : σ → σ → Prop :=
  Relation.ReflTransGen fun s s' => s' = (world.now s).2 ∨ ∃ target, s' = world.sleepUntil target s

/-- What the loop does and returns from a state of the world. -/
inductive RetryRun (world : World σ) (operation : StoreWriterOperation) (deadline : Nat) :
    List Nat → σ → List Effect → Written → σ → Prop
  | last {delays : List Nat} {s s' : σ} {result : Written} :
    world.backend operation s = (result, s') → (result = .error .busy → delays = []) →
    RetryRun world operation deadline delays s
      [.attempt { operation, started := world.time s, finished := world.time s', result }] result s'
  | gaveUp {delay : Nat} {delays : List Nat} {s s₁ s' : σ} {pause : List Effect} :
    world.backend operation s = (.error .busy, s₁) → Paused world s₁ s' →
    (∀ e ∈ pause, e.isPause = true) →
    RetryRun world operation deadline (delay :: delays) s
      (.attempt { operation, started := world.time s, finished := world.time s₁
                  result := .error .busy } :: pause) (.error .busy) s'
  | again {delay : Nat} {delays : List Nat} {s s₁ s₂ s' : σ} {reading : Nat}
    {pause rest : List Effect} {result : Written} :
    world.backend operation s = (.error .busy, s₁) → Paused world s₁ s₂ →
    (∀ e ∈ pause, e.isPause = true) → reading < deadline →
    world.time s₁ + delay ≤ world.time s₂ →
    RetryRun world operation deadline delays s₂ rest result s' →
    RetryRun world operation deadline (delay :: delays) s
      (.attempt { operation, started := world.time s, finished := world.time s₁
                  result := .error .busy } :: (pause ++ .clock reading :: rest)) result s'

theorem Paused.now {world : World σ} {s s' : σ} (h : Paused world s s') :
    Paused world s (world.readClock s').state :=
  h.tail (.inl rfl)

theorem Paused.sleep {world : World σ} {s s' : σ} (h : Paused world s s') (target : Nat) :
    Paused world s (world.sleep target s').state :=
  h.tail (.inr ⟨target, rfl⟩)

/-- **The loop has no other runs.** -/
theorem retryLoop_run {world : World σ} (hworld : world.Lawful) (operation : StoreWriterOperation)
    (deadline : Nat) (delays : List Nat) (s : σ) :
    let ran := retryLoop world operation deadline delays s
    RetryRun world operation deadline delays s ran.trace ran.value ran.state := by
  dsimp only
  induction delays generalizing s with
  | nil => exact .last rfl fun _ => rfl
  | cons delay delays ih =>
    rw [retryLoop, Traced.bind_apply]
    have hattempt : (world.attempt operation s).trace = [.attempt
        { operation, started := world.time s
          finished := world.time (world.attempt operation s).state
          result := (world.attempt operation s).value }] := rfl
    have hbackend : world.backend operation s =
        ((world.attempt operation s).value, (world.attempt operation s).state) := rfl
    rw [hattempt]
    generalize (world.attempt operation s).state = s₁ at hbackend
    generalize (world.attempt operation s).value = result at hbackend
    cases result with
    | ok outcome => exact .last hbackend (by intro h; cases h)
    | error error =>
      cases error with
      | store error => exact .last hbackend (by intro h; cases h)
      | closed => exact .last hbackend (by intro h; cases h)
      | busy =>
        dsimp only
        rw [Traced.bind_apply]
        have hnow : (world.readClock s₁).trace = [.clock (world.readClock s₁).value] := rfl
        have hafter := hworld.now_after s₁
        change world.time s₁ ≤ (world.readClock s₁).value at hafter
        have hread : Paused world s₁ (world.readClock s₁).state := Paused.now .refl
        rw [hnow]
        generalize (world.readClock s₁).value = now at hafter
        generalize (world.readClock s₁).state = s₂ at hread
        by_cases hlate : deadline ≤ now
        · rw [if_pos hlate]
          exact .gaveUp hbackend hread (by simp [Traced.pure_apply, Effect.isPause])
        · rw [if_neg hlate]
          by_cases hcapped : deadline ≤ now + delay
          · rw [if_pos hcapped]
            refine .gaveUp hbackend (hread.sleep deadline) ?_
            simp [Traced.pure_apply, Traced.bind_apply, World.sleep, Effect.isPause]
          · rw [if_neg hcapped, Traced.bind_apply]
            have hsleep : (world.sleep (now + delay) s₂).trace = [.sleep (now + delay)] := rfl
            have hslept := hworld.sleepUntil (now + delay) s₂
            change _ ≤ world.time (world.sleep (now + delay) s₂).state at hslept
            replace hread := hread.sleep (now + delay)
            rw [hsleep]
            generalize (world.sleep (now + delay) s₂).state = s₃ at hslept hread
            rw [Traced.bind_apply]
            have hnow' : (world.readClock s₃).trace = [.clock (world.readClock s₃).value] := rfl
            have hafter' := hworld.now_after s₃
            have hbefore' := hworld.now_before s₃
            change world.time s₃ ≤ (world.readClock s₃).value at hafter'
            change (world.readClock s₃).value ≤ world.time (world.readClock s₃).state at hbefore'
            replace hread := hread.now
            rw [hnow']
            generalize (world.readClock s₃).value = reading at hafter' hbefore'
            generalize (world.readClock s₃).state = s₄ at hbefore' hread
            by_cases hover : deadline ≤ reading
            · rw [if_pos hover]
              exact .gaveUp hbackend hread (by simp [Traced.pure_apply, Effect.isPause])
            · rw [if_neg hover]
              have hpause : ∀ e ∈ [Effect.clock now, .sleep (now + delay)], e.isPause = true := by
                simp [Effect.isPause]
              have hspaced : world.time s₁ + delay ≤ world.time s₄ := by omega
              have hrun : RetryRun world operation deadline (delay :: delays) s
                  (.attempt _ :: ([.clock now, .sleep (now + delay)] ++ .clock reading :: _)) _ _ :=
                .again hbackend hread hpause (Nat.lt_of_not_le hover) hspaced (ih s₄)
              exact hrun

theorem attempts_append (a b : List Effect) : attempts (a ++ b) = attempts a ++ attempts b :=
  List.filterMap_append

theorem attempts_pause {pause : List Effect} (h : ∀ e ∈ pause, e.isPause = true) :
    attempts pause = [] := by
  refine List.filterMap_eq_nil_iff.mpr fun e he => ?_
  have hpause := h e he
  cases e <;> first | rfl | cases hpause

theorem attempts_again {pause rest : List Effect} {reading : Nat}
    (h : ∀ e ∈ pause, e.isPause = true) :
    attempts (pause ++ .clock reading :: rest) = attempts rest := by
  rw [attempts_append, attempts_pause h]
  rfl

section
variable {world : World σ} {operation : StoreWriterOperation} {deadline : Nat}
  {delays : List Nat} {s s' : σ} {trace : List Effect} {result : Written}

theorem RetryRun.head (h : RetryRun world operation deadline delays s trace result s') :
    ∃ a rest, trace = .attempt a :: rest ∧ a.started = world.time s ∧
      attempts trace = a :: attempts rest := by
  cases h with
  | last _ _ => exact ⟨_, _, rfl, rfl, rfl⟩
  | gaveUp _ _ _ => exact ⟨_, _, rfl, rfl, rfl⟩
  | again _ _ _ _ _ _ => exact ⟨_, _, rfl, rfl, rfl⟩

theorem RetryRun.length_le (h : RetryRun world operation deadline delays s trace result s') :
    (attempts trace).length ≤ delays.length + 1 := by
  induction h with
  | last _ _ => exact Nat.le_add_left 1 _
  | gaveUp _ _ hpause =>
    change (_ :: attempts _).length ≤ _
    rw [attempts_pause hpause]
    exact Nat.le_add_left 1 _
  | again _ _ hpause _ _ _ ih =>
    change (_ :: attempts _).length ≤ _
    rw [attempts_again hpause]
    exact Nat.succ_le_succ ih

/-- The result is that of the last attempt. -/
theorem RetryRun.getLast (h : RetryRun world operation deadline delays s trace result s') :
    (attempts trace).getLast?.map (·.result) = some result := by
  induction h with
  | last _ _ => rfl
  | gaveUp _ _ hpause =>
    change Option.map _ (_ :: attempts _).getLast? = _
    rw [attempts_pause hpause]
    rfl
  | again _ _ hpause _ _ hrest ih =>
    change Option.map _ (_ :: attempts _).getLast? = _
    rw [attempts_again hpause]
    obtain ⟨a, more, -, -, hattempts⟩ := hrest.head
    rw [hattempts] at ih ⊢
    rw [List.getLast?_cons_cons]
    exact ih

/-- The others were busy. -/
theorem RetryRun.dropLast (h : RetryRun world operation deadline delays s trace result s') :
    ∀ a ∈ (attempts trace).dropLast, a.result = .error .busy := by
  induction h with
  | last _ _ => intro a ha; cases ha
  | gaveUp _ _ hpause =>
    change ∀ a ∈ (_ :: attempts _).dropLast, _
    rw [attempts_pause hpause]
    intro a ha
    cases ha
  | again _ _ hpause _ _ hrest ih =>
    change ∀ a ∈ (_ :: attempts _).dropLast, _
    rw [attempts_again hpause]
    obtain ⟨b, more, -, -, hattempts⟩ := hrest.head
    rw [hattempts] at ih ⊢
    rw [List.dropLast_cons_cons]
    intro a ha
    obtain rfl | ha := List.mem_cons.mp ha
    · rfl
    · exact ih a ha

theorem RetryRun.of_operation (h : RetryRun world operation deadline delays s trace result s') :
    ∀ a ∈ attempts trace, a.operation = operation := by
  induction h with
  | last _ _ => intro a ha; cases List.mem_singleton.mp ha; rfl
  | gaveUp _ _ hpause =>
    change ∀ a ∈ _ :: attempts _, _
    rw [attempts_pause hpause]
    intro a ha
    cases List.mem_singleton.mp ha
    rfl
  | again _ _ hpause _ _ _ ih =>
    change ∀ a ∈ _ :: attempts _, _
    rw [attempts_again hpause]
    intro a ha
    obtain rfl | ha := List.mem_cons.mp ha
    · rfl
    · exact ih a ha

/-- The wait before each attempt but the first. -/
theorem RetryRun.spaced (h : RetryRun world operation deadline delays s trace result s') :
    ∀ (i : Nat) (a b : Attempt), (attempts trace)[i]? = some a →
      (attempts trace)[i + 1]? = some b →
      ∃ delay, delays[i]? = some delay ∧ a.finished + delay ≤ b.started := by
  induction h with
  | last _ _ => intro i a b _ hb; cases hb
  | gaveUp _ _ hpause =>
    change ∀ i a b, (_ :: attempts _)[i]? = _ → (_ :: attempts _)[i + 1]? = _ → _
    rw [attempts_pause hpause]
    intro i a b _ hb
    cases hb
  | again _ _ hpause _ hnext hrest ih =>
    change ∀ i a b, (_ :: attempts _)[i]? = _ → (_ :: attempts _)[i + 1]? = _ → _
    rw [attempts_again hpause]
    intro i a b ha hb
    rw [List.getElem?_cons_succ] at hb
    cases i with
    | zero =>
      cases ha
      obtain ⟨first, more, -, hstarted, hattempts⟩ := hrest.head
      rw [hattempts] at hb
      cases hb
      exact ⟨_, rfl, hstarted ▸ hnext⟩
    | succ i => exact ih i a b ha hb

/-- What may stand before an attempt. -/
def ReadsBefore (deadline : Nat) (x y : Effect) : Prop :=
  ∀ a, y = .attempt a → ∃ reading, x = .clock reading ∧ reading < deadline

theorem isChain_pause {deadline : Nat} {pause rest : List Effect} {x : Effect}
    (h : ∀ e ∈ pause, e.isPause = true) (hrest : List.IsChain (ReadsBefore deadline) rest)
    (hhead : ∀ y ∈ rest.head?, y.isPause = true) :
    List.IsChain (ReadsBefore deadline) (x :: (pause ++ rest)) := by
  have hpauses : ∀ {x y}, y.isPause = true → ReadsBefore deadline x y := by
    intro x y hy a ha
    rw [ha] at hy
    cases hy
  induction pause generalizing x with
  | nil =>
    cases rest with
    | nil => exact .singleton _
    | cons y rest => exact .cons_cons (hpauses (hhead y rfl)) hrest
  | cons e pause ih =>
    exact .cons_cons (hpauses (h e List.mem_cons_self)) (ih fun e he => h e (List.mem_cons_of_mem _ he))

theorem isChain_pauses {deadline : Nat} {pause : List Effect} {x : Effect}
    (h : ∀ e ∈ pause, e.isPause = true) : List.IsChain (ReadsBefore deadline) (x :: pause) := by
  have hchain : List.IsChain (ReadsBefore deadline) (x :: (pause ++ [])) :=
    isChain_pause h .nil (by simp)
  rwa [List.append_nil] at hchain

theorem RetryRun.isChain (h : RetryRun world operation deadline delays s trace result s') (now : Nat)
    (hnow : now < deadline) : List.IsChain (ReadsBefore deadline) (.clock now :: trace) := by
  have hfirst : ∀ a, ReadsBefore deadline (.clock now) (.attempt a) := fun _ _ _ => ⟨now, rfl, hnow⟩
  induction h generalizing now with
  | last _ _ => exact .cons_cons (hfirst _) (.singleton _)
  | gaveUp _ _ hpause =>
    exact .cons_cons (hfirst _) (isChain_pauses hpause)
  | again _ _ hpause hreading _ _ ih =>
    refine .cons_cons (hfirst _) (isChain_pause hpause ?_ ?_)
    · exact ih _ hreading fun _ _ _ => ⟨_, rfl, hreading⟩
    · intro y hy
      cases hy
      rfl

theorem RetryRun.quiet (h : RetryRun world operation deadline delays s trace result s') :
    ∀ e ∈ trace, e.isPause = true ∨ e.attempt?.isSome = true := by
  induction h with
  | last _ _ => intro e he; cases List.mem_singleton.mp he; exact .inr rfl
  | gaveUp _ _ hpause =>
    intro e he
    obtain rfl | he := List.mem_cons.mp he
    · exact .inr rfl
    · exact .inl (hpause e he)
  | again _ _ hpause _ _ _ ih =>
    intro e he
    obtain rfl | he := List.mem_cons.mp he
    · exact .inr rfl
    · obtain he | he := List.mem_append.mp he
      · exact .inl (hpause e he)
      · obtain rfl | he := List.mem_cons.mp he
        · exact .inl rfl
        · exact ih e he

end

/-! ## The law of `execute` -/

/-- What one `execute` does and returns. -/
structure ExecuteLaw (operation : StoreWriterOperation) (deadline : Nat) (trace : List Effect)
    (result : Written) : Prop where
  attempts_le : (attempts trace).length ≤ 6
  of_operation : ∀ a ∈ attempts trace, a.operation = operation
  spaced : ∀ (i : Nat) (a b : Attempt), (attempts trace)[i]? = some a →
    (attempts trace)[i + 1]? = some b →
    ∃ delay, retryDelays[i]? = some delay ∧ a.finished + delay ≤ b.started
  checked : ∀ before a after, trace = before ++ .attempt a :: after →
    ∃ reading, before.getLast? = some (.clock reading) ∧ reading < deadline
  busy : ∀ a ∈ (attempts trace).dropLast, a.result = .error .busy
  ok_iff : ∀ outcome, result = .ok outcome ↔
    ∃ a, (attempts trace).getLast? = some a ∧ a.result = .ok outcome
  commits : (attempts trace).countP (·.committed) = if result.isOk then 1 else 0
  quiet : ∀ e ∈ trace, e.isPause = true ∨ e.attempt?.isSome = true

/-- The commits of attempts that were busy but for the last one. -/
theorem countP_committed {all : List Attempt} {last : Attempt} (hlast : all.getLast? = some last)
    (hbusy : ∀ a ∈ all.dropLast, a.result = .error .busy) :
    all.countP (·.committed) = if last.result.isOk then 1 else 0 := by
  have hne : all ≠ [] := by rintro rfl; cases hlast
  have hall : all = all.dropLast ++ [last] := by
    rw [List.getLast?_eq_some_getLast hne] at hlast
    rw [← Option.some.inj hlast, List.dropLast_append_getLast hne]
  have hnone : all.dropLast.countP (·.committed) = 0 := by
    rw [List.countP_eq_zero]
    intro a ha
    rw [Attempt.committed, hbusy a ha]
    exact Bool.false_ne_true
  rw [hall, List.countP_append, hnone, Nat.zero_add, List.countP_singleton]
  rfl

theorem execute_law {world : World σ} (hworld : world.Lawful) (operation : StoreWriterOperation)
    (deadline : Nat) (s : σ) :
    ExecuteLaw operation deadline (execute world operation deadline s).trace
      (execute world operation deadline s).value := by
  rw [execute, Traced.bind_apply]
  have htrace : (world.readClock s).trace = [.clock (world.readClock s).value] := rfl
  rw [htrace]
  generalize (world.readClock s).value = now
  generalize (world.readClock s).state = s₁
  by_cases hlate : deadline ≤ now
  · rw [if_pos hlate]
    refine ⟨Nat.zero_le _, fun a ha => (by cases ha), fun i a b ha => (by cases ha), ?_,
      fun a ha => (by cases ha), ?_, rfl, fun e he => ?_⟩
    · intro before a after heq
      have hmem : Effect.attempt a ∈ [Effect.clock now] := by
        change [Effect.clock now] = _ at heq
        rw [heq]
        exact List.mem_append_right _ List.mem_cons_self
      cases List.mem_singleton.mp hmem
    · intro outcome
      exact ⟨fun h => (by cases h), fun ⟨a, ha, _⟩ => (by cases ha)⟩
    · cases List.mem_singleton.mp he
      exact .inl rfl
  · rw [if_neg hlate]
    have hrun := retryLoop_run hworld operation deadline retryDelays s₁
    dsimp only at hrun
    generalize (retryLoop world operation deadline retryDelays s₁).trace = trace at hrun
    generalize (retryLoop world operation deadline retryDelays s₁).value = result at hrun
    have hlast := hrun.getLast
    obtain ⟨last, hlast, hresult⟩ := Option.map_eq_some_iff.mp hlast
    refine ⟨hrun.length_le, hrun.of_operation, hrun.spaced, ?_, hrun.dropLast, ?_, ?_, ?_⟩
    · intro before a after heq
      have hchain := hrun.isChain now (Nat.lt_of_not_le hlate)
      change _ :: trace = _ at heq
      rw [heq, List.isChain_append] at hchain
      have hne : before ≠ [] := by
        rintro rfl
        cases heq
      obtain ⟨reading, hreading, hlt⟩ := hchain.2.2 _ (List.getLast?_eq_some_getLast hne) _ rfl a rfl
      exact ⟨reading, by rw [List.getLast?_eq_some_getLast hne, hreading], hlt⟩
    · intro outcome
      rw [← hresult]
      exact ⟨fun h => ⟨last, hlast, h⟩, fun ⟨a, ha, h⟩ => by
        change (attempts trace).getLast? = _ at ha
        rw [hlast] at ha
        cases ha
        exact h⟩
    · rw [← hresult]
      exact countP_committed hlast hrun.dropLast
    · intro e he
      obtain rfl | he := List.mem_cons.mp he
      · exact .inl rfl
      · exact hrun.quiet e he

/-! ## The law of `run_writer` -/

/-- The event that an outcome of an operation has written. -/
def eventOf : StoreWriterOperation → StoreWriterOperationOutcome → Option EventId
  | .task (.createTask _), .task (.create (.created _ eventId)) => some eventId
  | .task (.retryTask _), .task (.retry (.created _ eventId)) => some eventId
  | .task (.transitionWithEvent _ _ _), .task (.transition (.applied _ eventId)) => some eventId
  | .task (.appendRunningEvent _ _), .task (.append (.applied eventId)) => some eventId
  | .task (.recoverIncomplete _ _), .task (.recovery outcome) => outcome.lastEventId
  | _, _ => none

/-- What the writer does for one command: it executes the operation, wakes the
dispatcher if the receipt has an event id, and responds. -/
def CommandLaw (command : WriteCommand) (segment : List Effect) : Prop :=
  ∃ (executed : List Effect) (result : Written) (response : Response) (panicked delivered : Bool),
    ExecuteLaw command.operation command.deadline executed result ∧
    response.eventId? = result.toOption.bind (eventOf command.operation) ∧
    segment = executed ++ (if response.eventId?.isSome then [.wake panicked] else []) ++
      [.respond response delivered]

theorem receiptAndWake_spec {α : Type} (world : World σ) (value : α) (eventId : Option EventId)
    (s : σ) : ∃ panicked,
      (receiptAndWake world value eventId s).value = { value, eventId } ∧
      (receiptAndWake world value eventId s).trace =
        if eventId.isSome then [.wake panicked] else [] := by
  cases eventId with
  | none => exact ⟨false, rfl, rfl⟩
  | some id => exact ⟨(world.wake s).1, rfl, rfl⟩

theorem write_spec {α : Type} (world : World σ) (command : WriteCommand)
    (expect : StoreWriterOperationOutcome → Except StoreWriterError α)
    (eventId : α → Option EventId) (s : σ) :
    let executed := execute world command.operation command.deadline s
    let receipt := (executed.value.bind expect).map fun value => ⟨value, eventId value⟩
    (write world command expect eventId s).value = receipt ∧
      ∃ panicked, (write world command expect eventId s).trace = executed.trace ++
        (if (receipt.toOption.bind (·.eventId)).isSome then [.wake panicked] else []) := by
  dsimp only
  rw [write, Traced.bind_apply]
  generalize execute world command.operation command.deadline s = executed
  cases hvalue : executed.value.bind expect with
  | error error => exact ⟨rfl, false, rfl⟩
  | ok value =>
    obtain ⟨panicked, hreceipt, htrace⟩ :=
      receiptAndWake_spec world value (eventId value) executed.state
    simp only [Traced.bind_apply, Traced.pure_apply, hreceipt, htrace, List.append_nil]
    exact ⟨rfl, panicked, rfl⟩

/-- The arms of `perform`. -/
theorem arm_law {α : Type} {world : World σ} (hworld : world.Lawful) (command : WriteCommand)
    (expect : StoreWriterOperationOutcome → Except StoreWriterError α)
    (eventId : α → Option EventId)
    (respond : Except StoreWriterError (WriteReceipt α) → Response)
    (hrespond : ∀ result, (respond result).eventId? = result.toOption.bind (·.eventId))
    (hevent : ∀ outcome, (expect outcome).toOption.bind eventId = eventOf command.operation outcome)
    (s : σ) : CommandLaw command
      ((do world.respond (← respond <$> write world command expect eventId)) s).trace := by
  obtain ⟨hvalue, panicked, htrace⟩ := write_spec world command expect eventId s
  have hlaw := execute_law hworld command.operation command.deadline s
  have hresponse : (respond (write world command expect eventId s).value).eventId? =
      (execute world command.operation command.deadline s).value.toOption.bind
        (eventOf command.operation) := by
    rw [hrespond, hvalue]
    cases (execute world command.operation command.deadline s).value with
    | error _ => rfl
    | ok outcome =>
      simp only [Except.bind, Except.toOption, Option.bind_some, ← hevent]
      cases expect outcome <;> rfl
  rw [← hvalue, ← hrespond] at htrace
  have hperform : ((do world.respond (← respond <$> write world command expect eventId)) s).trace =
      ((write world command expect eventId s).trace ++ []) ++
        [.respond (respond (write world command expect eventId s).value)
          (world.send (respond (write world command expect eventId s).value)
            (write world command expect eventId s).state).1] := rfl
  rw [List.append_nil, htrace] at hperform
  exact ⟨_, _, _, panicked, _, hlaw, hresponse, hperform⟩

theorem command_law {world : World σ} (hworld : world.Lawful) (command : WriteCommand) (s : σ) :
    CommandLaw command ((do world.respond (← perform world command)) s).trace := by
  obtain ⟨operation, deadline⟩ := command
  cases operation with
  | registerRepository input =>
    refine arm_law hworld _ _ _ _ (fun result => by cases result <;> rfl) (fun outcome => ?_) s
    cases outcome with
    | registerRepository _ => rfl
    | task reply => rfl
  | task operation =>
    cases operation with
    | createTask input =>
      refine arm_law hworld _ _ _ _ (fun result => by cases result <;> rfl) (fun outcome => ?_) s
      rcases outcome with _ | ((_ | _) | _ | _ | _ | _) <;> rfl
    | retryTask sourceId =>
      refine arm_law hworld _ _ _ _ (fun result => by cases result <;> rfl) (fun outcome => ?_) s
      rcases outcome with _ | (_ | (_ | _) | _ | _ | _) <;> rfl
    | transitionWithEvent taskId expected transition =>
      refine arm_law hworld _ _ _ _ (fun result => by cases result <;> rfl) (fun outcome => ?_) s
      rcases outcome with _ | (_ | _ | (_ | _) | _ | _) <;> rfl
    | appendRunningEvent taskId payload =>
      refine arm_law hworld _ _ _ _ (fun result => by cases result <;> rfl) (fun outcome => ?_) s
      rcases outcome with _ | (_ | _ | _ | (_ | _) | _) <;> rfl
    | recoverIncomplete now failure =>
      refine arm_law hworld _ _ _ _ (fun result => by cases result <;> rfl) (fun outcome => ?_) s
      rcases outcome with _ | (_ | _ | _ | _ | _) <;> rfl

/-- **Writer retry law.** Each `execute` attempts its operation at most six times,
after the waits and before the deadline, and returns the result of its last
attempt, the only one that may have committed. The trace of the writer is one
segment for each command, in the order of the queue. -/
theorem writer_retry_law {world : World σ} (hworld : world.Lawful) :
    (∀ operation deadline s, ExecuteLaw operation deadline
      (execute world operation deadline s).trace (execute world operation deadline s).value) ∧
    ∀ commands s, ∃ segments, List.Forall₂ CommandLaw commands segments ∧
      (runWriter world commands s).trace = segments.flatten := by
  refine ⟨execute_law hworld, fun commands s => ?_⟩
  obtain ⟨segments, hturns, htrace⟩ := Traced.forEach_trace
    (fun command => do world.respond (← perform world command)) commands s
  refine ⟨segments, hturns.imp fun command segment hturn => ?_, htrace⟩
  obtain ⟨s, rfl⟩ := hturn
  exact command_law hworld command s

/-- A clock, the results to come, a wake that panics and a requester that is gone. -/
def sampleWorld : World (Nat × List Written) where
  time s := s.1
  now s := (s.1, s)
  sleepUntil target s := (max target s.1, s.2)
  backend _ s := (s.2.headD (.error .busy), (s.1 + 1, s.2.tail))
  wake s := (true, s)
  send _ s := (false, s)

theorem sampleWorld_lawful : sampleWorld.Lawful :=
  ⟨fun _ => Nat.le_refl _, fun _ => Nat.le_refl _, fun _ _ => Nat.le_max_left _ _⟩

def sampleCommand : WriteCommand where
  operation := .task (.recoverIncomplete .epoch ⟨"RESTARTED", "", true⟩)
  deadline := fromMillis 1000

def sampleEventId : EventId := .first

/-- Two busy attempts, then a commit. -/
def sampleResults : List Written :=
  [.error .busy, .error .busy,
    .ok (.task (.recovery ⟨1, some sampleEventId, some sampleEventId, 1⟩))]

theorem writer_retry_law_sample :
    let trace := (runWriter sampleWorld [sampleCommand] (0, sampleResults)).trace
    (∃ segments, List.Forall₂ CommandLaw [sampleCommand] segments ∧ trace = segments.flatten) ∧
      (attempts trace).map (·.committed) = [false, false, true] ∧
      (attempts trace).map (·.started) = [0, fromMillis 25 + 1, fromMillis 75 + 2] ∧
      trace.drop 10 = [.wake true, .respond
        (.recoverIncomplete (.ok ⟨⟨1, some sampleEventId, some sampleEventId, 1⟩,
          some sampleEventId⟩)) false] :=
  ⟨(writer_retry_law sampleWorld_lawful).2 _ _, by decide +kernel, by decide +kernel,
    by decide +kernel⟩

/-! ## The writer over the store -/

/-- The backend is the store, and nothing else touches its database. -/
structure World.OnStore (world : World σ) (db : σ → Db) : Prop where
  backend : ∀ operation s, ∃ env repositoryId fails,
    operation.execute env repositoryId fails (db s) =
      ((world.backend operation s).1.toOption, db (world.backend operation s).2)
  now : ∀ s, db (world.now s).2 = db s
  sleepUntil : ∀ target s, db (world.sleepUntil target s) = db s

theorem Paused.db_eq {world : World σ} {db : σ → Db} (hstore : world.OnStore db) {s s' : σ}
    (h : Paused world s s') : db s' = db s := by
  induction h with
  | refl => rfl
  | tail _ hstep ih =>
    obtain rfl | ⟨target, rfl⟩ := hstep
    · rw [hstore.now, ih]
    · rw [hstore.sleepUntil, ih]

/-- A failed operation has changed nothing. -/
theorem execute_none {env : Env} {repositoryId : RepositoryId} {fails : Bool} {db db' : Db}
    {operation : StoreWriterOperation}
    (h : operation.execute env repositoryId fails db = (none, db')) : db' = db := by
  cases operation with
  | registerRepository input =>
    simp only [StoreWriterOperation.execute] at h
    split at h
    · cases h; rfl
    · split at h <;> cases h
      rfl
  | task operation =>
    simp only [StoreWriterOperation.execute, Call.run] at h
    split at h
    · cases h
    · next hrun =>
      cases h
      split at hrun
      · cases hrun; rfl
      · split at hrun <;> cases hrun
        rfl

theorem execute_fails (operation : StoreWriterOperation) (env : Env) (repositoryId : RepositoryId)
    (db : Db) : operation.execute env repositoryId true db = (none, db) := by
  cases operation <;> rfl

theorem RetryRun.onStore {world : World σ} {db : σ → Db} (hstore : world.OnStore db)
    {operation : StoreWriterOperation} {deadline : Nat} {delays : List Nat} {s s' : σ}
    {trace : List Effect} {result : Written}
    (h : RetryRun world operation deadline delays s trace result s') :
    ∃ env repositoryId fails,
      operation.execute env repositoryId fails (db s) = (result.toOption, db s') := by
  induction h with
  | last hbackend _ =>
    obtain ⟨env, repositoryId, fails, hexecute⟩ := hstore.backend operation _
    rw [hbackend] at hexecute
    exact ⟨env, repositoryId, fails, hexecute⟩
  | gaveUp hbackend hpaused _ =>
    obtain ⟨env, repositoryId, fails, hexecute⟩ := hstore.backend operation _
    rw [hbackend] at hexecute
    exact ⟨env, repositoryId, fails, by rw [hpaused.db_eq hstore]; exact hexecute⟩
  | again hbackend hpaused _ _ _ _ ih =>
    obtain ⟨env, repositoryId, fails, hexecute⟩ := hstore.backend operation _
    rw [hbackend] at hexecute
    rw [hpaused.db_eq hstore, execute_none hexecute] at ih
    exact ih

/-- **The retries are one execution.** With its retries and its deadline,
`execute` does to the database what the writer of the primary does in one step. -/
theorem execute_onStore {world : World σ} (hworld : world.Lawful) {db : σ → Db}
    (hstore : world.OnStore db) (env : Env) (repositoryId : RepositoryId)
    (operation : StoreWriterOperation) (deadline : Nat) (s : σ) :
    ∃ env repositoryId fails, operation.execute env repositoryId fails (db s) =
      ((execute world operation deadline s).value.toOption,
        db (execute world operation deadline s).state) := by
  have hnow : db (world.readClock s).state = db s := hstore.now s
  rw [execute, Traced.bind_apply]
  by_cases hlate : deadline ≤ (world.readClock s).value
  · rw [if_pos hlate]
    refine ⟨env, repositoryId, true, ?_⟩
    rw [execute_fails, ← hnow]
    rfl
  · rw [if_neg hlate, ← hnow]
    exact (retryLoop_run hworld operation deadline retryDelays _).onStore hstore

end

end CodingAgent.L4.App.StoreWriter
