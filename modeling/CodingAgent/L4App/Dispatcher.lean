import CodingAgent.L2Store.Projection
import CodingAgent.L2Store.Runs

/-!
# The event dispatcher (`coding-agent-app/src/event_dispatcher.rs`)

One actor reads the persisted events page by page and sends each on the
broadcast channel. It suspends in its `select!` and in each read of the store;
between two suspension points of a page it sends one event at a time, with
commits, wakes and new commands from other tasks in between. A read of the
store may fail.

* `dispatcher`: the transition system.
* `Sound`: the invariant; the events sent are read off the log without gaps.
* `dispatcher_exact`: what has been sent in every reachable state, what an
  answered flush means, and that one call of `publish_available` ends.

What subscribers of the channel miss is not modelled here: `broadcast` is what
was sent.
-/
namespace CodingAgent.L4.App
open CodingAgent.L1.Domain CodingAgent.L2.Store CodingAgent.IdLog

namespace EventDispatcher

def eventPageSize : Nat := 256

/-- mirrors crates/coding-agent-app/src/event_dispatcher.rs:16-22 -/
inductive EventDispatcherError where
  | store (error : StoreError)
  | closed
  deriving DecidableEq, Repr

/-- A response channel is the number of the `flush_to` call it belongs to.
mirrors crates/coding-agent-app/src/event_dispatcher.rs:136-144 -/
inductive DispatcherCommand where
  | flush (target : Nat) (response : Nat)
  | close
  deriving DecidableEq, Repr

def DispatcherCommand.response? : DispatcherCommand → Option Nat
  | .flush _ response => some response
  | .close => none

/-- mirrors crates/coding-agent-app/src/event_dispatcher.rs:146-149 -/
structure FlushWaiter where
  target : Nat
  response : Nat
  deriving DecidableEq, Repr

/-- Where `run_dispatcher` is. -/
inductive DispatcherPc where
  /-- in the `select!` -/
  | select
  /-- in `events_after` -/
  | reading
  /-- in the loop over a page -/
  | page (rest : List TaskEvent) (highWatermark cursorBeforePage : Nat)
  | returned
  deriving DecidableEq, Repr

structure Dispatcher where
  db : Db
  cursor : Nat
  waiters : List FlushWaiter
  pc : DispatcherPc
  commands : List DispatcherCommand
  /-- the permit of `Notify` -/
  wake : Bool
  closeRequested : Bool
  /-- some handle, and so some sender of commands, is left -/
  handles : Bool
  /-- the cursor `spawn` read -/
  spawnCursor : Nat
  /-- everything sent since `spawn` -/
  broadcast : List TaskEvent
  /-- the target of each call of `flush_to` -/
  targets : List Nat
  answers : Nat → Option (Except EventDispatcherError Unit)

inductive DispatcherLabel where
  /-- a transaction of the store, by anybody -/
  | commit (call : StoreCall)
  | wake
  | flushTo (target : Nat)
  | close
  | dropHandles
  /-- `commands.recv()` is ready -/
  | recv
  /-- `wake.notified()` is ready -/
  | notified
  /-- `poll.tick()` is ready -/
  | tick
  | read
  | readFails (error : StoreError)
  | event
  | pageDone

namespace Dispatcher

/-- mirrors crates/coding-agent-app/src/event_dispatcher.rs:53-79 -/
def spawn (db : Db) (cursor : Nat) : Dispatcher where
  db := db
  cursor := cursor
  waiters := []
  pc := .select
  commands := []
  wake := false
  closeRequested := false
  handles := true
  spawnCursor := cursor
  broadcast := []
  targets := []
  answers := fun _ => none

def answer (s : Dispatcher) (response : Nat) (result : Except EventDispatcherError Unit) :
    Dispatcher :=
  { s with answers := fun i => if i = response then some result else s.answers i }

/-- mirrors crates/coding-agent-app/src/event_dispatcher.rs:226-236 -/
def completeWaiters (s : Dispatcher) : Dispatcher :=
  { s with
    waiters := s.waiters.filter fun w => !(w.target ≤ s.cursor)
    answers := fun i =>
      if s.waiters.any fun w => w.response = i && w.target ≤ s.cursor then some (.ok ())
      else s.answers i }

/-- mirrors crates/coding-agent-app/src/event_dispatcher.rs:238-242 -/
def failWaiters (s : Dispatcher) (error : EventDispatcherError) : Dispatcher :=
  { s with
    waiters := []
    answers := fun i =>
      if s.waiters.any fun w => w.response = i then some (.error error) else s.answers i }

/-- The actor returns: its receiver is dropped with the commands in it, and
with them their response channels. -/
def finish (s : Dispatcher) : Dispatcher :=
  { s with
    pc := .returned
    commands := []
    answers := fun i =>
      if s.commands.any fun c => c.response? = some i then some (.error .closed)
      else s.answers i }

/-- mirrors crates/coding-agent-app/src/event_dispatcher.rs:89-100 -/
def flushTo (s : Dispatcher) (target : Nat) : Dispatcher :=
  let response := s.targets.length
  let s := { s with targets := s.targets ++ [target] }
  if s.closeRequested ∨ s.pc = .returned then s.answer response (.error .closed)
  else { s with commands := s.commands ++ [.flush target response] }

/-- mirrors crates/coding-agent-app/src/event_dispatcher.rs:102-127 -/
def close (s : Dispatcher) : Dispatcher :=
  if s.closeRequested ∨ s.pc = .returned then s
  else { s with closeRequested := true, commands := s.commands ++ [.close] }

/-- The arm of the `select!` that receives a command.
mirrors crates/coding-agent-app/src/event_dispatcher.rs:164-182 -/
def recv (s : Dispatcher) : Option Dispatcher :=
  match s.commands with
  | .flush target response :: commands =>
    let s := { s with commands }
    if target ≤ s.cursor then some (s.answer response (.ok ()))
    else some { s with waiters := s.waiters ++ [⟨target, response⟩], pc := .reading }
  | .close :: commands => some (finish ({ s with commands }.failWaiters .closed))
  | [] => if s.handles then none else some (finish (s.failWaiters .closed))

/-- The body of the loop over a page: an event at or below the cursor is
skipped.
mirrors crates/coding-agent-app/src/event_dispatcher.rs:210-218 -/
def publish (s : Dispatcher) (event : TaskEvent) : Dispatcher :=
  if event.id.get ≤ s.cursor then s
  else { s with broadcast := s.broadcast ++ [event], cursor := event.id.get }.completeWaiters

def next (s : Dispatcher) : DispatcherLabel → Option Dispatcher
  | .commit call => some { s with db := call.run s.db }
  | .wake => if s.handles then some { s with wake := true } else none
  | .flushTo target => if s.handles then some (s.flushTo target) else none
  | .close => if s.handles then some s.close else none
  | .dropHandles => some { s with handles := false }
  | .recv => if s.pc = .select then s.recv else none
  | .notified =>
    if s.pc = .select ∧ s.wake then some { s with wake := false, pc := .reading } else none
  | .tick => if s.pc = .select then some { s with pc := .reading } else none
  | .read =>
    if s.pc = .reading then
      match eventsAfter s.cursor eventPageSize s.db with
      | .ok (page, _) =>
        let events := page.events.insertionSort fun a b => a.id.get ≤ b.id.get
        some { s with pc := .page events page.highWatermark s.cursor }
      | .error error => some { s.failWaiters (.store error) with pc := .select }
    else none
  | .readFails error =>
    if s.pc = .reading then some { s.failWaiters (.store error) with pc := .select } else none
  | .event =>
    match s.pc with
    | .page (event :: rest) highWatermark cursorBeforePage =>
      some ({ s with pc := .page rest highWatermark cursorBeforePage }.publish event)
    | _ => none
  | .pageDone =>
    match s.pc with
    | .page [] highWatermark cursorBeforePage =>
      if highWatermark ≤ s.cursor ∨ s.cursor = cursorBeforePage then some { s with pc := .select }
      else some { s with pc := .reading }
    | _ => none

end Dispatcher

open Dispatcher

/-- A dispatcher spawned on a store that other tasks keep writing to. -/
def dispatcher : LTS Dispatcher DispatcherLabel :=
  .ofFn (fun s => ∃ db cursor, store.Reachable db ∧ latestEventCursor db = .ok (cursor, db) ∧
    s = spawn db cursor) next

/-! ## The invariant -/

/-- What a page says while its events are sent: they are the next ones, and a
page that had none was read at the end of the log. -/
def DispatcherPc.Paging (log : List TaskEvent) (cursor : Nat) : DispatcherPc → Prop
  | .page rest highWatermark cursorBeforePage => Contig history.key log cursor rest ∧
      cursorBeforePage ≤ cursor ∧ (cursor = cursorBeforePage → rest = [] → highWatermark ≤ cursor)
  | .select | .reading | .returned => True

/-- What was sent, against the log of the store. -/
structure Sound (log : List TaskEvent) (s : Dispatcher) : Prop where
  reflects : Reflects s.db log
  sent : Contig history.key log s.spawnCursor s.broadcast
  cursor : s.cursor = endKey history.key s.spawnCursor s.broadcast
  paging : s.pc.Paging log s.cursor

/-- What the answers and the waiters know of the targets. -/
structure Answered (s : Dispatcher) : Prop where
  commands : ∀ target response, .flush target response ∈ s.commands →
    s.targets[response]? = some target
  waiters : ∀ w ∈ s.waiters, s.targets[w.response]? = some w.target
  answers : ∀ i, s.answers i = some (.ok ()) → ∃ target, s.targets[i]? = some target ∧
    target ≤ s.cursor

theorem sound_spawn {db : Db} {log : List TaskEvent} (h : Reflects db log) (cursor : Nat) :
    Sound log (spawn db cursor) := ⟨h, trivial, rfl, trivial⟩

theorem answered_spawn (db : Db) (cursor : Nat) : Answered (spawn db cursor) where
  commands _ _ h := by cases h
  waiters _ h := by cases h
  answers _ h := by cases h

theorem Sound.commit {log new : List TaskEvent} {s : Dispatcher} {db' : Db} (h : Sound log s)
    (hr : Reflects db' (log ++ new)) : Sound (log ++ new) { s with db := db' } where
  reflects := hr
  sent := contig_grow hr.valid.beyond h.sent
  cursor := h.cursor
  paging := by
    have hp := h.paging
    show s.pc.Paging _ _
    cases hpc : s.pc with
    | page rest highWatermark before =>
      rw [hpc] at hp
      exact ⟨contig_grow hr.valid.beyond hp.1, hp.2⟩
    | select => trivial
    | reading => trivial
    | returned => trivial

/-- Sending the next event. -/
theorem Sound.publish {log : List TaskEvent} {s : Dispatcher} {event : TaskEvent}
    {rest : List TaskEvent} {highWatermark before : Nat} (h : Sound log s)
    (hpc : s.pc = .page (event :: rest) highWatermark before) :
    Sound log ({ s with pc := .page rest highWatermark before }.publish event) ∧
      ({ s with pc := .page rest highWatermark before }.publish event).broadcast =
        s.broadcast ++ [event] := by
  have hp := h.paging
  rw [hpc] at hp
  obtain ⟨⟨hnext, hrest⟩, hbefore, -⟩ := hp
  have hlt : s.cursor < event.id.get := hnext.lt
  have hpublish : { s with pc := .page rest highWatermark before }.publish event =
      completeWaiters { s with
        pc := .page rest highWatermark before
        broadcast := s.broadcast ++ [event]
        cursor := event.id.get } := by
    unfold Dispatcher.publish
    exact if_neg (by simpa using hlt)
  rw [hpublish]
  refine ⟨⟨h.reflects, contig_snoc h.sent (h.cursor ▸ hnext), ?_, hrest, ?_, ?_⟩, rfl⟩
  · show event.id.get = endKey history.key s.spawnCursor (s.broadcast ++ [event])
    rw [endKey_snoc]
    rfl
  · show before ≤ event.id.get
    omega
  · intro heq
    have heq : event.id.get = before := heq
    omega

/-- A page of the store is what follows the cursor, and an empty page is read
at the end of the log. -/
theorem eventsAfter_reads {db db' : Db} {log : List TaskEvent} {after : Nat} {page : EventPage}
    (h : Reflects db log) (hpage : eventsAfter after eventPageSize db = .ok (page, db')) :
    Contig history.key log after (page.events.insertionSort fun a b => a.id.get ≤ b.id.get) ∧
      (page.events = [] → page.highWatermark ≤ after) := by
  rw [eventPage_reflects h, Except.ok.injEq, Prod.mk.injEq] at hpage
  obtain ⟨rfl, -⟩ := hpage
  have hcontig := contig_take (limitAsI64 eventPageSize) (contig_filter h.valid.increasing after)
  have hsorted : ((log.filter fun e => after < e.id.get).take (limitAsI64 eventPageSize)).Pairwise
      fun a b => a.id.get ≤ b.id.get :=
    (contig_pairwise hcontig).imp fun hlt => Nat.le_of_lt hlt
  constructor
  · show Contig _ _ _ (List.insertionSort _ _)
    rw [hsorted.insertionSort_eq]
    exact hcontig
  · intro hnil
    refine latest_le fun e he => Nat.not_lt.1 fun hlt => ?_
    have hmem : e ∈ log.filter fun e => after < e.id.get := by simpa using ⟨he, hlt⟩
    rcases List.take_eq_nil_iff.1 hnil with hzero | hnil
    · cases hzero
    · rw [hnil] at hmem
      cases hmem

theorem Sound.read {log : List TaskEvent} {s : Dispatcher} {page : EventPage} {db' : Db}
    (h : Sound log s) (hpage : eventsAfter s.cursor eventPageSize s.db = .ok (page, db')) :
    Sound log { s with
      pc := .page (page.events.insertionSort fun a b => a.id.get ≤ b.id.get) page.highWatermark
        s.cursor } := by
  obtain ⟨hcontig, hend⟩ := eventsAfter_reads h.reflects hpage
  refine ⟨h.reflects, h.sent, h.cursor, hcontig, Nat.le_refl _, fun _ hnil => hend ?_⟩
  exact List.length_eq_zero_iff.1 ((List.length_insertionSort ..).symm.trans
    (List.length_eq_zero_iff.2 hnil))

/-- A step that leaves the store, the cursor and what was sent alone, outside
of a page. -/
theorem Sound.away {log : List TaskEvent} {s s' : Dispatcher} (h : Sound log s)
    (hdb : s'.db = s.db) (hspawn : s'.spawnCursor = s.spawnCursor)
    (hsent : s'.broadcast = s.broadcast) (hcursor : s'.cursor = s.cursor)
    (hpc : s'.pc = s.pc ∨ s'.pc = .select ∨ s'.pc = .reading ∨ s'.pc = .returned) :
    Sound log s' where
  reflects := by rw [hdb]; exact h.reflects
  sent := by rw [hspawn, hsent]; exact h.sent
  cursor := by rw [hcursor, hspawn, hsent]; exact h.cursor
  paging := by
    rcases hpc with hpc | hpc | hpc | hpc
    · rw [hpc, hcursor]; exact h.paging
    · rw [hpc]; trivial
    · rw [hpc]; trivial
    · rw [hpc]; trivial

/-- Every step: the log grows by what a commit appends, and stays otherwise. -/
theorem sound_step {log : List TaskEvent} {s s' : Dispatcher} {l : DispatcherLabel}
    (h : Sound log s) (hs : s.next l = some s') : ∃ new, Sound (log ++ new) s' := by
  have keep : Sound log s' → ∃ new, Sound (log ++ new) s' :=
    fun h' => ⟨[], by rw [List.append_nil]; exact h'⟩
  cases l with
  | commit call =>
    cases hs
    obtain ⟨new, hr⟩ := call.run_reflects h.reflects
    exact ⟨new, h.commit hr⟩
  | wake =>
    simp only [next] at hs
    split at hs
    · cases hs
      exact keep (h.away rfl rfl rfl rfl (.inl rfl))
    · cases hs
  | flushTo target =>
    simp only [next] at hs
    split at hs
    · cases hs
      refine keep ?_
      simp only [Dispatcher.flushTo]
      split
      · exact h.away rfl rfl rfl rfl (.inl rfl)
      · exact h.away rfl rfl rfl rfl (.inl rfl)
    · cases hs
  | close =>
    simp only [next] at hs
    split at hs
    · cases hs
      refine keep ?_
      unfold Dispatcher.close
      split
      · exact h
      · exact h.away rfl rfl rfl rfl (.inl rfl)
    · cases hs
  | dropHandles =>
    cases hs
    exact keep (h.away rfl rfl rfl rfl (.inl rfl))
  | recv =>
    simp only [next] at hs
    split at hs
    · refine keep ?_
      unfold Dispatcher.recv at hs
      split at hs
      · dsimp only at hs
        split at hs
        · cases hs
          exact h.away rfl rfl rfl rfl (.inl rfl)
        · cases hs
          exact h.away rfl rfl rfl rfl (.inr (.inr (.inl rfl)))
      · cases hs
        exact h.away rfl rfl rfl rfl (.inr (.inr (.inr rfl)))
      · split at hs
        · cases hs
        · cases hs
          exact h.away rfl rfl rfl rfl (.inr (.inr (.inr rfl)))
    · cases hs
  | notified =>
    simp only [next] at hs
    split at hs
    · cases hs
      exact keep (h.away rfl rfl rfl rfl (.inr (.inr (.inl rfl))))
    · cases hs
  | tick =>
    simp only [next] at hs
    split at hs
    · cases hs
      exact keep (h.away rfl rfl rfl rfl (.inr (.inr (.inl rfl))))
    · cases hs
  | read =>
    simp only [next] at hs
    split at hs
    · split at hs
      · rename_i page db' hpage
        cases hs
        exact keep (h.read hpage)
      · cases hs
        exact keep (h.away rfl rfl rfl rfl (.inr (.inl rfl)))
    · cases hs
  | readFails error =>
    simp only [next] at hs
    split at hs
    · cases hs
      exact keep (h.away rfl rfl rfl rfl (.inr (.inl rfl)))
    · cases hs
  | event =>
    simp only [next] at hs
    split at hs
    · rename_i hpc
      cases hs
      exact keep (h.publish hpc).1
    · cases hs
  | pageDone =>
    simp only [next] at hs
    split at hs
    · split at hs
      · cases hs
        exact keep (h.away rfl rfl rfl rfl (.inr (.inl rfl)))
      · cases hs
        exact keep (h.away rfl rfl rfl rfl (.inr (.inr (.inl rfl))))
    · cases hs

/-! ## Answers -/

theorem Answered.mono {s s' : Dispatcher} (h : Answered s)
    (hcommands : ∀ target response, .flush target response ∈ s'.commands →
      .flush target response ∈ s.commands)
    (hwaiters : ∀ w ∈ s'.waiters, w ∈ s.waiters) (htargets : s'.targets = s.targets)
    (hanswers : ∀ i, s'.answers i = some (.ok ()) → s.answers i = some (.ok ()))
    (hcursor : s.cursor ≤ s'.cursor) : Answered s' where
  commands target response hmem := by
    rw [htargets]
    exact h.commands target response (hcommands target response hmem)
  waiters w hw := by
    rw [htargets]
    exact h.waiters w (hwaiters w hw)
  answers i hi := by
    obtain ⟨target, ht, hle⟩ := h.answers i (hanswers i hi)
    exact ⟨target, by rw [htargets]; exact ht, by omega⟩

theorem Answered.failWaiters {s : Dispatcher} (h : Answered s) (error : EventDispatcherError) :
    Answered (s.failWaiters error) := by
  refine h.mono (fun _ _ hmem => hmem) (fun w hw => by cases hw) rfl (fun i hi => ?_) (Nat.le_refl _)
  simp only [Dispatcher.failWaiters] at hi
  split at hi
  · cases hi
  · exact hi

theorem Answered.finish {s : Dispatcher} (h : Answered s) : Answered s.finish := by
  refine h.mono (fun _ _ hmem => by cases hmem) (fun w hw => hw) rfl (fun i hi => ?_) (Nat.le_refl _)
  simp only [Dispatcher.finish] at hi
  split at hi
  · cases hi
  · exact hi

/-- A waiter is answered once the cursor has reached its target. -/
theorem Answered.completeWaiters {s : Dispatcher} (h : Answered s) : Answered s.completeWaiters where
  commands := h.commands
  waiters w hw := h.waiters w (List.mem_of_mem_filter hw)
  answers i hi := by
    simp only [Dispatcher.completeWaiters] at hi
    split at hi
    · rename_i hany
      obtain ⟨w, hw, hdone⟩ := List.any_eq_true.1 hany
      simp only [Bool.and_eq_true, decide_eq_true_eq] at hdone
      exact ⟨w.target, hdone.1 ▸ h.waiters w hw, hdone.2⟩
    · exact h.answers i hi

theorem Answered.publish {s : Dispatcher} (h : Answered s) (event : TaskEvent) :
    Answered (s.publish event) := by
  unfold Dispatcher.publish
  split
  · exact h
  · rename_i hlt
    refine Answered.completeWaiters (h.mono (fun _ _ hmem => hmem) (fun w hw => hw) rfl
      (fun i hi => hi) ?_)
    exact Nat.le_of_lt (Nat.not_le.1 hlt)

theorem Answered.answer {s : Dispatcher} {target response : Nat} (h : Answered s)
    (htarget : s.targets[response]? = some target) (hle : target ≤ s.cursor) :
    Answered (s.answer response (.ok ())) where
  commands := h.commands
  waiters := h.waiters
  answers i hi := by
    simp only [Dispatcher.answer] at hi
    split at hi
    · rename_i heq
      exact ⟨target, heq ▸ htarget, hle⟩
    · exact h.answers i hi

theorem Answered.flushTo {s : Dispatcher} (h : Answered s) (target : Nat) :
    Answered (s.flushTo target) := by
  -- the target of the new call, after those of the others
  have hold : ∀ {response t : Nat}, s.targets[response]? = some t →
      (s.targets ++ [target])[response]? = some t := by
    intro response t ht
    rw [List.getElem?_append_left (List.getElem?_eq_some_iff.1 ht).1]
    exact ht
  have hasked : Answered { s with targets := s.targets ++ [target] } := by
    refine ⟨fun t response hmem => hold (h.commands t response hmem),
      fun w hw => hold (h.waiters w hw), fun i hi => ?_⟩
    obtain ⟨t, ht, hle⟩ := h.answers i hi
    exact ⟨t, hold ht, hle⟩
  simp only [Dispatcher.flushTo]
  split
  · refine hasked.mono (fun _ _ hmem => hmem) (fun w hw => hw) rfl (fun i hi => ?_) (Nat.le_refl _)
    simp only [Dispatcher.answer] at hi
    split at hi
    · cases hi
    · exact hi
  · refine ⟨fun t response hmem => ?_, hasked.waiters, hasked.answers⟩
    rcases List.mem_append.1 hmem with hmem | hmem
    · exact hasked.commands t response hmem
    · cases List.mem_singleton.1 hmem
      show (s.targets ++ [target])[s.targets.length]? = some target
      simp

theorem Answered.recv {s s' : Dispatcher} (h : Answered s) (hs : s.recv = some s') :
    Answered s' := by
  unfold Dispatcher.recv at hs
  have hrest : ∀ {c commands}, s.commands = c :: commands →
      Answered { s with commands } := fun heq =>
    h.mono (fun _ _ hmem => heq ▸ List.mem_cons_of_mem _ hmem) (fun w hw => hw) rfl
      (fun i hi => hi) (Nat.le_refl _)
  split at hs
  · rename_i target response commands heq
    have htarget : s.targets[response]? = some target :=
      h.commands target response (heq ▸ List.mem_cons_self)
    dsimp only at hs
    split at hs
    · rename_i hle
      cases hs
      exact (hrest heq).answer htarget hle
    · cases hs
      refine ⟨(hrest heq).commands, fun w hw => ?_, (hrest heq).answers⟩
      rcases List.mem_append.1 hw with hw | hw
      · exact h.waiters w hw
      · cases List.mem_singleton.1 hw
        exact htarget
  · rename_i commands heq
    cases hs
    exact ((hrest heq).failWaiters .closed).finish
  · split at hs
    · cases hs
    · cases hs
      exact (h.failWaiters .closed).finish

theorem answered_step {s s' : Dispatcher} {l : DispatcherLabel} (h : Answered s)
    (hs : s.next l = some s') : Answered s' := by
  have away : ∀ {t : Dispatcher}, t.commands = s.commands → t.waiters = s.waiters →
      t.targets = s.targets → t.answers = s.answers → t.cursor = s.cursor → Answered t :=
    fun hc hw ht ha hcur => h.mono (fun _ _ hmem => hc ▸ hmem) (fun w hmem => hw ▸ hmem) ht
      (fun i hi => ha ▸ hi) (Nat.le_of_eq hcur.symm)
  cases l with
  | commit call =>
    cases hs
    exact away rfl rfl rfl rfl rfl
  | wake =>
    simp only [next] at hs
    split at hs
    · cases hs
      exact away rfl rfl rfl rfl rfl
    · cases hs
  | flushTo target =>
    simp only [next] at hs
    split at hs
    · cases hs
      exact h.flushTo target
    · cases hs
  | close =>
    simp only [next] at hs
    split at hs
    · cases hs
      unfold Dispatcher.close
      split
      · exact h
      · refine h.mono (fun t response hmem => ?_) (fun w hw => hw) rfl (fun i hi => hi)
          (Nat.le_refl _)
        rcases List.mem_append.1 hmem with hmem | hmem
        · exact hmem
        · cases List.mem_singleton.1 hmem
    · cases hs
  | dropHandles =>
    cases hs
    exact away rfl rfl rfl rfl rfl
  | recv =>
    simp only [next] at hs
    split at hs
    · exact h.recv hs
    · cases hs
  | notified =>
    simp only [next] at hs
    split at hs
    · cases hs
      exact away rfl rfl rfl rfl rfl
    · cases hs
  | tick =>
    simp only [next] at hs
    split at hs
    · cases hs
      exact away rfl rfl rfl rfl rfl
    · cases hs
  | read =>
    simp only [next] at hs
    split at hs
    · split at hs
      · cases hs
        exact away rfl rfl rfl rfl rfl
      · cases hs
        exact (h.failWaiters _).mono (fun _ _ hmem => hmem) (fun w hw => hw) rfl (fun i hi => hi)
          (Nat.le_refl _)
    · cases hs
  | readFails error =>
    simp only [next] at hs
    split at hs
    · cases hs
      exact (h.failWaiters _).mono (fun _ _ hmem => hmem) (fun w hw => hw) rfl (fun i hi => hi)
        (Nat.le_refl _)
    · cases hs
  | event =>
    simp only [next] at hs
    split at hs
    · rename_i event rest highWatermark before hpc
      cases hs
      have hpage : Answered { s with pc := .page rest highWatermark before } :=
        away rfl rfl rfl rfl rfl
      exact hpage.publish event
    · cases hs
  | pageDone =>
    simp only [next] at hs
    split at hs
    · split at hs
      · cases hs
        exact away rfl rfl rfl rfl rfl
      · cases hs
        exact away rfl rfl rfl rfl rfl
    · cases hs

theorem dispatcher_sound :
    dispatcher.Inductive fun s => (∃ log, Sound log s) ∧ Answered s where
  init := by
    rintro s ⟨db, cursor, hdb, -, rfl⟩
    obtain ⟨log, h⟩ := reachable_reflects hdb
    exact ⟨⟨log, sound_spawn h cursor⟩, answered_spawn db cursor⟩
  step := by
    rintro s l s' ⟨⟨log, h⟩, ha⟩ hs
    obtain ⟨new, h'⟩ := sound_step h hs
    exact ⟨⟨_, h'⟩, answered_step ha hs⟩

/-! ## Termination -/

/-- A step of the actor inside `publish_available`. -/
def DispatcherLabel.isPublishing : DispatcherLabel → Bool
  | .read | .readFails _ | .event | .pageDone => true
  | _ => false

/-- A step that may happen while the log stays as it is and no new call of
`publish_available` begins. -/
def DispatcherLabel.isQuiet : DispatcherLabel → Bool
  | .wake | .flushTo _ | .close | .dropHandles => true
  | _ => false

/-- The persisted events beyond the cursor. -/
def Dispatcher.remaining (s : Dispatcher) : Nat :=
  (s.db.events.filter fun r => s.cursor < r.id).length

/-- The steps that are left of a call: three for each event that may still
begin a page, and those of the page at hand. -/
def Dispatcher.work (s : Dispatcher) : Nat :=
  match s.pc with
  | .select | .returned => 0
  | .reading => 3 * s.remaining + 2
  | .page _ _ cursorBeforePage =>
    if s.cursor = cursorBeforePage then 3 * s.remaining + 1 else 3 * s.remaining + 3

theorem Dispatcher.work_le (s : Dispatcher) : s.work ≤ 3 * s.remaining + 3 := by
  unfold work
  split
  · omega
  · omega
  · omega
  · split <;> omega

/-- The next event is no longer remaining once it is sent. -/
theorem remaining_next {db : Db} {log : List TaskEvent} {cursor : Nat} {event : TaskEvent}
    (h : Reflects db log) (hnext : Next history.key log cursor event) :
    (db.events.filter fun r => event.id.get < r.id).length <
      (db.events.filter fun r => cursor < r.id).length := by
  have hlt : cursor < event.id.get := hnext.lt
  have hmem : EventRow.ofEvent event ∈ db.events := by
    rw [h.events]
    exact List.mem_map_of_mem hnext.mem
  have hsub : (db.events.filter fun r => event.id.get < r.id) =
      (db.events.filter fun r => cursor < r.id).filter fun r => event.id.get < r.id := by
    rw [List.filter_filter]
    refine List.filter_congr fun r _ => ?_
    by_cases hr : event.id.get < r.id
    · simp [hr, Nat.lt_trans hlt hr]
    · simp [hr]
  rw [hsub]
  refine List.length_filter_lt_length_iff_exists.2 ⟨EventRow.ofEvent event, ?_, ?_⟩
  · exact List.mem_filter.2 ⟨hmem, decide_eq_true hlt⟩
  · simp [EventRow.ofEvent]

/-- Every step of the call uses some of its work. -/
theorem work_publishing {log : List TaskEvent} {s s' : Dispatcher} {l : DispatcherLabel}
    (h : Sound log s) (hl : l.isPublishing = true) (hs : s.next l = some s') : s'.work < s.work := by
  cases l with
  | read =>
    simp only [next] at hs
    split at hs
    · rename_i hpc
      have hwork : s.work = 3 * s.remaining + 2 := by rw [Dispatcher.work, hpc]
      split at hs
      · cases hs
        have hwork' : ∀ rest highWatermark,
            ({ s with pc := .page rest highWatermark s.cursor } : Dispatcher).work =
              3 * s.remaining + 1 := fun _ _ => if_pos rfl
        rw [hwork', hwork]
        omega
      · cases hs
        rw [hwork]
        exact Nat.succ_pos _
    · cases hs
  | readFails error =>
    simp only [next] at hs
    split at hs
    · rename_i hpc
      cases hs
      rw [Dispatcher.work, Dispatcher.work, hpc]
      exact Nat.succ_pos _
    · cases hs
  | event =>
    simp only [next] at hs
    split at hs
    · rename_i event rest highWatermark before hpc
      cases hs
      have hp := h.paging
      rw [hpc] at hp
      obtain ⟨⟨hnext, -⟩, hbefore, -⟩ := hp
      have hlt : s.cursor < event.id.get := hnext.lt
      have hless := remaining_next h.reflects hnext
      have hwork : 3 * s.remaining + 1 ≤ s.work := by
        rw [Dispatcher.work, hpc]
        dsimp only
        split <;> omega
      have hpublish : ({ s with pc := .page rest highWatermark before }.publish event).work =
          3 * (s.db.events.filter fun r => event.id.get < r.id).length + 3 := by
        unfold Dispatcher.publish
        rw [if_neg (by simpa using hlt)]
        refine if_neg (?_ : ¬ event.id.get = before)
        omega
      rw [hpublish]
      unfold Dispatcher.remaining at hwork
      omega
    · cases hs
  | pageDone =>
    simp only [next] at hs
    split at hs
    · rename_i highWatermark before hpc
      split at hs
      · cases hs
        rw [Dispatcher.work, Dispatcher.work, hpc]
        dsimp only
        split <;> omega
      · rename_i hmore
        cases hs
        have hwork : s.work = 3 * s.remaining + 3 := by
          rw [Dispatcher.work, hpc]
          exact if_neg fun heq => hmore (.inr heq)
        rw [hwork]
        show 3 * s.remaining + 2 < _
        omega
    · cases hs
  | commit => cases hl
  | wake => cases hl
  | flushTo => cases hl
  | close => cases hl
  | dropHandles => cases hl
  | recv => cases hl
  | notified => cases hl
  | tick => cases hl

theorem work_quiet {s s' : Dispatcher} {l : DispatcherLabel} (hl : l.isQuiet = true)
    (hs : s.next l = some s') : s'.work = s.work := by
  cases l with
  | wake =>
    simp only [next] at hs
    split at hs
    · cases hs; rfl
    · cases hs
  | flushTo target =>
    simp only [next] at hs
    split at hs
    · cases hs
      simp only [Dispatcher.flushTo]
      split <;> rfl
    · cases hs
  | close =>
    simp only [next] at hs
    split at hs
    · cases hs
      unfold Dispatcher.close
      split <;> rfl
    · cases hs
  | dropHandles => cases hs; rfl
  | commit => cases hl
  | recv => cases hl
  | notified => cases hl
  | tick => cases hl
  | read => cases hl
  | readFails => cases hl
  | event => cases hl
  | pageDone => cases hl

/-- Along a call, its steps are bounded by its work. -/
theorem work_run {s s' : Dispatcher} {ls : List DispatcherLabel} (hrun : dispatcher.Run s ls s') :
    (∃ log, Sound log s) → (∀ l ∈ ls, l.isPublishing = true ∨ l.isQuiet = true) →
      ls.countP (·.isPublishing) + s'.work ≤ s.work := by
  induction hrun with
  | nil s => intro _ _; simp
  | @cons s m s' l ls hs _ ih =>
    rintro ⟨log, h⟩ hl
    obtain ⟨new, h'⟩ := sound_step h hs
    have hrest := ih ⟨_, h'⟩ fun x hx => hl x (List.mem_cons_of_mem l hx)
    rw [List.countP_cons]
    rcases hl l List.mem_cons_self with hp | hq
    · have := work_publishing h hp hs
      rw [if_pos hp]
      omega
    · have := work_quiet hq hs
      have hp : l.isPublishing = false := by cases l <;> first | rfl | cases hq
      rw [hp, if_neg Bool.false_ne_true]
      omega

/-- Inside a call the actor can always go on. -/
theorem publishing_enabled {log : List TaskEvent} {s : Dispatcher} (h : Sound log s)
    (hselect : s.pc ≠ .select) (hreturned : s.pc ≠ .returned) :
    s.next .read ≠ none ∨ s.next .event ≠ none ∨ s.next .pageDone ≠ none := by
  cases hpc : s.pc with
  | select => exact absurd hpc hselect
  | returned => exact absurd hpc hreturned
  | reading =>
    refine .inl ?_
    simp only [next, hpc, eventsAfter]
    rw [show eventPage none s.cursor eventPageSize s.db = _ from
      eventPage_reflects h.reflects s.cursor eventPageSize]
    exact fun hnone => by cases hnone
  | page rest highWatermark before =>
    cases rest with
    | cons event rest =>
      refine .inr (.inl ?_)
      simp only [next, hpc]
      exact fun hnone => by cases hnone
    | nil =>
      refine .inr (.inr ?_)
      simp only [next, hpc]
      split <;> exact fun hnone => by cases hnone

/-! ## The contract -/

structure DispatcherContract (s : Dispatcher) : Prop where
  /-- what was sent: the persisted events between the two cursors, in order -/
  sent : s.broadcast.map EventRow.ofEvent =
    s.db.events.filter fun r => s.spawnCursor < r.id ∧ r.id ≤ s.cursor
  increasing : s.broadcast.Pairwise fun a b => a.id.get < b.id.get
  /-- a flush that was answered had its events sent -/
  flushed : ∀ response target : Nat, s.targets[response]? = some target →
    s.answers response = some (.ok ()) →
    ∀ r ∈ s.db.events, s.spawnCursor < r.id → r.id ≤ target → r ∈ s.broadcast.map EventRow.ofEvent
  /-- a failed read moves nothing -/
  failed : ∀ error s', s.next (.readFails error) = some s' →
    s'.db = s.db ∧ s'.cursor = s.cursor ∧ s'.broadcast = s.broadcast
  /-- `publish_available` returns `Ok` at the high watermark it read last -/
  caughtUp : ∀ highWatermark before s', s.pc = .page [] highWatermark before →
    s.next .pageDone = some s' → s'.pc = .select → highWatermark ≤ s'.cursor
  /-- a call of `publish_available` on a log that no longer grows ends -/
  ends : ∀ ls s', dispatcher.Run s ls s' → (∀ l ∈ ls, l.isPublishing = true ∨ l.isQuiet = true) →
    ls.countP (·.isPublishing) ≤ 3 * s.remaining + 3
  moves : s.pc ≠ .select → s.pc ≠ .returned →
    s.next .read ≠ none ∨ s.next .event ≠ none ∨ s.next .pageDone ≠ none

theorem Sound.sent_eq {log : List TaskEvent} {s : Dispatcher} (h : Sound log s) :
    s.broadcast.map EventRow.ofEvent =
      s.db.events.filter fun r => s.spawnCursor < r.id ∧ r.id ≤ s.cursor := by
  have hsent := contig_eq_filter h.reflects.valid.increasing h.sent
  rw [← h.cursor] at hsent
  rw [hsent, h.reflects.events, List.filter_map]
  rfl

/-- **The dispatcher.** In every reachable state, whatever was committed, lost,
failed and asked for in between. -/
theorem dispatcher_exact {s : Dispatcher} (h : dispatcher.Reachable s) : DispatcherContract s := by
  obtain ⟨⟨log, hs⟩, ha⟩ := dispatcher_sound.reachable s h
  refine ⟨hs.sent_eq, contig_pairwise hs.sent, ?_, ?_, ?_, ?_, publishing_enabled hs⟩
  · intro response target htarget hanswer r hr hlt hle
    obtain ⟨target', htarget', hreached⟩ := ha.answers response hanswer
    cases htarget.symm.trans htarget'
    rw [hs.sent_eq]
    exact List.mem_filter.2 ⟨hr, decide_eq_true ⟨hlt, by omega⟩⟩
  · intro error s' hstep
    simp only [next] at hstep
    split at hstep
    · cases hstep
      exact ⟨rfl, rfl, rfl⟩
    · cases hstep
  · intro highWatermark before s' hpc hstep hselect
    have hp := hs.paging
    rw [hpc] at hp
    simp only [next, hpc] at hstep
    split at hstep
    · rename_i hdone
      cases hstep
      exact hdone.elim id fun heq => hp.2.2 heq rfl
    · cases hstep
      cases hselect
  · intro ls s' hrun hl
    have hwork := work_run hrun ⟨log, hs⟩ hl
    have hle := s.work_le
    omega

/-- A read fails; a flush then publishes the first of two events, the second
being committed while the page is sent. -/
def sampleFlush : List DispatcherLabel :=
  [.commit sampleRegistration, .commit (.task (sampleCreation 2)), .tick, .readFails .database,
   .flushTo 1, .recv, .read,
   .commit (.task ⟨sampleEnv 3, .transitionWithEvent ⟨2⟩ .queued .cancelled, false⟩), .event,
   .pageDone]

theorem dispatcher_exact_sample : ∃ s, DispatcherContract s ∧
    s.broadcast.map (·.id.get) = [1] ∧ s.db.events.map (·.id) = [1, 2] ∧
    s.answers 0 = some (.ok ()) := by
  have hrun : (LTS.exec next (spawn (Db.migrated []) 0) sampleFlush).map (fun s =>
      (s.broadcast.map (·.id.get), s.db.events.map (·.id), s.answers 0 == some (.ok ()))) =
        some ([1], [1, 2], true) := by decide +kernel
  obtain ⟨s, hs, heq⟩ := Option.map_eq_some_iff.1 hrun
  obtain ⟨hsent, hrest⟩ := Prod.mk.inj heq
  obtain ⟨hevents, hanswer⟩ := Prod.mk.inj hrest
  have hr : dispatcher.Reachable s :=
    LTS.reachable_of_exec ⟨_, 0, LTS.reachable_init rfl, rfl, rfl⟩ hs
  exact ⟨s, dispatcher_exact hr, hsent, hevents, eq_of_beq hanswer⟩

end EventDispatcher
end CodingAgent.L4.App
