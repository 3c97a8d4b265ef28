import CodingAgent.Core.Lineage
import CodingAgent.L2Store.Chains
import Mathlib.Data.List.Sort

/-!
# The attempts of a task (`web/src/components/TaskWorkspace.tsx`)

`retryChain` goes up the `retry_of` links from a task to the first attempt the
client holds, and from there down again, an attempt at a time. What the client
holds may be partial, and nothing keeps it from being cyclic, so both loops
remember what they have seen.

A loop gets a number of turns; `none` is a loop that is still running after
them.

* `rootFrom_turns`, `chainFrom_turns`: as many turns as tasks are enough.
* `RetryLaw`: what the store keeps of its tasks; `retryLaw_of_store`.
* `retry_chain`: the chain ends, without a task twice, and under the law it is
  the whole line of the task in the order of the attempts.
-/
namespace CodingAgent.L5.Web.RetryChain
open CodingAgent.L1.Domain CodingAgent.L2 CodingAgent.L2.Store Lineage

/-! ## The records -/

/-- `Record<string, Task>`: the tasks under their keys, in the order of
`Object.values`. -/
structure TasksById where
  entries : List (TaskId × Task)
  keys : (entries.map (·.1)).Nodup

namespace TasksById

variable (tasksById : TasksById)

/-- `tasksById[id]` -/
def get (id : TaskId) : Option Task := (tasksById.entries.find? fun e => e.1 = id).map (·.2)

/-- `Object.values(tasksById)` -/
def values : List Task := tasksById.entries.map (·.2)

end TasksById

/-! ## The loops -/

/-- `Number.MAX_SAFE_INTEGER` -/
def maxSafeInteger : Nat := 2 ^ 53 - 1

/-- `orderIndex.get(id) ?? Number.MAX_SAFE_INTEGER`: a later entry of the map
replaces an earlier one.
mirrors web/src/components/TaskWorkspace.tsx:73,95-96 -/
def orderIndex (taskOrder : List TaskId) (id : TaskId) : Nat :=
  ((taskOrder.zipIdx.filter fun e => e.1 = id).getLast?.map (·.2)).getD maxSafeInteger

section
variable (tasksById : TasksById) (taskOrder : List TaskId)

/-- What the comparator returns.
mirrors web/src/components/TaskWorkspace.tsx:93-97 -/
def comparator (left right : Task) : Int :=
  if (left.attempt.toNat : Int) - right.attempt.toNat ≠ 0 then
    (left.attempt.toNat : Int) - right.attempt.toNat
  else (orderIndex taskOrder left.id : Int) - orderIndex taskOrder right.id

/-- The turns of the first loop.
mirrors web/src/components/TaskWorkspace.tsx:74-82 -/
def rootFrom : Nat → List TaskId → Task → Option Task
  | 0, _, _ => none
  | turns + 1, seenAncestors, root =>
    match root.retryOf with
    | none => some root
    | some parent =>
      if root.id ∈ seenAncestors then some root
      else
        match tasksById.get parent with
        | none => some root
        | some previous => rootFrom turns (root.id :: seenAncestors) previous

/-- The next attempt: the first of the sorted candidates; the sort is stable.
mirrors web/src/components/TaskWorkspace.tsx:90-97 -/
def nextAttempt (seen : List TaskId) (current : Task) : Option Task :=
  ((tasksById.values.filter fun candidate =>
      candidate.retryOf = some current.id && !seen.contains candidate.id).insertionSort
    fun left right => comparator taskOrder left right ≤ 0).head?

/-- The turns of the second loop.
mirrors web/src/components/TaskWorkspace.tsx:84-98 -/
def chainFrom : Nat → List Task → List TaskId → Option Task → Option (List Task)
  | 0, _, _, _ => none
  | turns + 1, chain, seen, current =>
    match current with
    | none => some chain
    | some current =>
      if current.id ∈ seen then some chain
      else
        chainFrom turns (chain ++ [current]) (current.id :: seen)
          (nextAttempt tasksById taskOrder (current.id :: seen) current)

/-- mirrors web/src/components/TaskWorkspace.tsx:72-100 -/
def retryChain (turns : Nat) (task : Task) : Option (List Task) :=
  (rootFrom tasksById turns [] task).bind fun root =>
    chainFrom tasksById taskOrder turns [] [] (some root)

end

/-! ## Lookups -/

section
variable {tasksById : TasksById} {taskOrder : List TaskId} {seen : List TaskId} {turns : Nat}

theorem mem_of_get {id : TaskId} {t : Task} (h : tasksById.get id = some t) :
    (id, t) ∈ tasksById.entries := by
  obtain ⟨e, he, rfl⟩ := Option.map_eq_some_iff.1 h
  have hid : e.1 = id := by simpa using List.find?_some he
  obtain rfl := hid
  exact List.mem_of_find?_eq_some he

theorem get_of_mem {id : TaskId} {t : Task} (h : (id, t) ∈ tasksById.entries) :
    tasksById.get id = some t := by
  cases hget : tasksById.entries.find? fun e => e.1 = id with
  | none => exact absurd (List.find?_eq_none.1 hget _ h) (by simp)
  | some e =>
    have hid : e.1 = id := by simpa using List.find?_some hget
    have he := List.inj_on_of_nodup_map tasksById.keys (List.mem_of_find?_eq_some hget) h hid
    simp [TasksById.get, hget, he]

theorem mem_values {t : Task} : t ∈ tasksById.values ↔ ∃ id, (id, t) ∈ tasksById.entries := by
  simp [TasksById.values]

theorem nextAttempt_eq_some {current t : Task}
    (h : nextAttempt tasksById taskOrder seen current = some t) :
    t ∈ tasksById.values ∧ t.retryOf = some current.id ∧ t.id ∉ seen := by
  have hmem := List.mem_of_mem_head? h
  rw [List.mem_insertionSort, List.mem_filter] at hmem
  simpa using hmem

theorem nextAttempt_eq_none {current : Task}
    (h : nextAttempt tasksById taskOrder seen current = none) :
    ∀ t ∈ tasksById.values, t.retryOf = some current.id → t.id ∈ seen := by
  intro t ht hretry
  by_contra hseen
  have hmem : t ∈ (tasksById.values.filter fun candidate =>
      candidate.retryOf = some current.id && !seen.contains candidate.id).insertionSort
      fun left right => comparator taskOrder left right ≤ 0 := by
    rw [List.mem_insertionSort, List.mem_filter]
    simp [ht, hretry, hseen]
  rw [List.head?_eq_none_iff.1 h] at hmem
  cases hmem

/-! ## The turns of a loop -/

/-- The tasks that were not seen. -/
def unseen (tasksById : TasksById) (seen : List TaskId) : Nat :=
  (tasksById.values.filter fun t => !seen.contains t.id).length

theorem unseen_cons_lt {t : Task} (ht : t ∈ tasksById.values) (hseen : t.id ∉ seen) :
    unseen tasksById (t.id :: seen) < unseen tasksById seen := by
  have hfilter : (tasksById.values.filter fun u => !(t.id :: seen).contains u.id) =
      (tasksById.values.filter fun u => !seen.contains u.id).filter fun u => u.id ≠ t.id := by
    rw [List.filter_filter]
    apply List.filter_congr
    intro u _
    simp [eq_comm]
  rw [unseen, unseen, hfilter, List.length_filter_lt_length_iff_exists]
  exact ⟨t, by simp [ht, hseen], by simp⟩

theorem unseen_le : unseen tasksById seen ≤ tasksById.entries.length := by
  have h := List.length_filter_le (fun t : Task => !seen.contains t.id) tasksById.values
  simpa [unseen, TasksById.values] using h

theorem rootFrom_turns {root : Task} (hroot : root ∈ tasksById.values)
    (h : unseen tasksById seen < turns) :
    ∃ r ∈ tasksById.values, rootFrom tasksById turns seen root = some r := by
  induction turns generalizing seen root with
  | zero => omega
  | succ turns ih =>
    unfold rootFrom
    split
    · exact ⟨_, hroot, rfl⟩
    split
    · exact ⟨_, hroot, rfl⟩
    rename_i hseen
    split
    · exact ⟨_, hroot, rfl⟩
    · rename_i previous hprevious
      have hlt := unseen_cons_lt hroot hseen
      exact ih (mem_values.2 ⟨_, mem_of_get hprevious⟩) (by omega)

/-- More turns change nothing. -/
theorem rootFrom_mono {more : Nat} {root r : Task} (h : rootFrom tasksById turns seen root = some r)
    (hle : turns ≤ more) : rootFrom tasksById more seen root = some r := by
  induction turns generalizing seen root more with
  | zero => cases h
  | succ turns ih =>
    obtain ⟨more, rfl⟩ : ∃ n, more = n + 1 := ⟨more - 1, by omega⟩
    unfold rootFrom at h ⊢
    split at h
    · exact h
    split at h
    · rename_i hseen
      rwa [if_pos hseen]
    rename_i hseen
    rw [if_neg hseen]
    split at h
    · exact h
    · exact ih h (by omega)

theorem chainFrom_turns {chain : List Task} {current : Option Task}
    (hcurrent : ∀ t, current = some t → t ∈ tasksById.values)
    (h : unseen tasksById seen < turns) :
    ∃ l, chainFrom tasksById taskOrder turns chain seen current = some l := by
  induction turns generalizing chain seen current with
  | zero => omega
  | succ turns ih =>
    unfold chainFrom
    split
    · exact ⟨_, rfl⟩
    rename_i t
    split
    · exact ⟨_, rfl⟩
    · rename_i hseen
      have hlt := unseen_cons_lt (hcurrent t rfl) hseen
      apply ih _ (by omega)
      intro next hnext
      exact (nextAttempt_eq_some hnext).1

theorem chainFrom_mono {more : Nat} {chain l : List Task} {current : Option Task}
    (h : chainFrom tasksById taskOrder turns chain seen current = some l) (hle : turns ≤ more) :
    chainFrom tasksById taskOrder more chain seen current = some l := by
  induction turns generalizing chain seen current more with
  | zero => cases h
  | succ turns ih =>
    obtain ⟨more, rfl⟩ : ∃ n, more = n + 1 := ⟨more - 1, by omega⟩
    unfold chainFrom at h ⊢
    split at h
    · exact h
    split at h
    · rename_i hseen
      simp only [if_pos hseen]
      exact h
    · rename_i hseen
      simp only [if_neg hseen]
      exact ih h (by omega)

/-- What was seen is the chain, which has no task twice. -/
theorem chainFrom_nodup {chain l : List Task} {current : Option Task}
    (h : chainFrom tasksById taskOrder turns chain seen current = some l)
    (hseen : ∀ id, id ∈ seen ↔ id ∈ chain.map (·.id)) (hnodup : (chain.map (·.id)).Nodup) :
    (l.map (·.id)).Nodup := by
  induction turns generalizing chain seen current with
  | zero => cases h
  | succ turns ih =>
    unfold chainFrom at h
    split at h
    · cases h
      exact hnodup
    split at h
    · cases h
      exact hnodup
    · rename_i t hnew
      apply ih h
      · intro id
        simp [hseen, or_comm]
      · rw [hseen] at hnew
        rw [List.map_append, List.nodup_append]
        refine ⟨hnodup, by simp, ?_⟩
        intro id hid other hother heq
        simp only [List.map_cons, List.map_nil, List.mem_singleton] at hother
        exact hnew (hother ▸ heq ▸ hid)

end

/-! ## The store's law -/

/-- `b` is a retry of `a`, and both are there. -/
def Link (tasksById : TasksById) (a b : Task) : Prop :=
  a ∈ tasksById.values ∧ b ∈ tasksById.values ∧ b.retryOf = some a.id

/-- What the store keeps of its tasks; each is under its own id. That no task
is its own ancestor follows from the attempts. -/
structure RetryLaw (tasksById : TasksById) : Prop where
  keyed : ∀ id t, (id, t) ∈ tasksById.entries → t.id = id
  oneChild : ∀ {a b c}, Link tasksById a b → Link tasksById a c → b = c
  attempt : ∀ {a b}, Link tasksById a b → b.attempt.toNat = a.attempt.toNat + 1

section
variable {tasksById : TasksById} {taskOrder : List TaskId} {seen : List TaskId} {turns : Nat}

theorem RetryLaw.id_inj (h : RetryLaw tasksById) {a b : Task} (ha : a ∈ tasksById.values)
    (hb : b ∈ tasksById.values) (hid : a.id = b.id) : a = b := by
  obtain ⟨i, ha⟩ := mem_values.1 ha
  obtain ⟨j, hb⟩ := mem_values.1 hb
  have hi := h.keyed i a ha
  have hj := h.keyed j b hb
  have hget := get_of_mem ha
  rw [← hi, hid, hj, get_of_mem hb] at hget
  exact (Option.some.inj hget).symm

theorem RetryLaw.linear (h : RetryLaw tasksById) :
    Linear (Link tasksById) fun t => t.attempt.toNat where
  oneParent := by
    intro a b c ha hb
    apply h.id_inj ha.1 hb.1
    have hid := ha.2.2.symm.trans hb.2.2
    exact Option.some.inj hid
  oneChild := h.oneChild
  rank := h.attempt

theorem RetryLaw.get_id (h : RetryLaw tasksById) {t : Task} (ht : t ∈ tasksById.values) :
    tasksById.get t.id = some t := by
  obtain ⟨id, hmem⟩ := mem_values.1 ht
  rw [h.keyed id t hmem]
  exact get_of_mem hmem

/-- The first loop goes up the links to a task without a parent: what it has
seen has later attempts. -/
theorem rootFrom_spec (hlaw : RetryLaw tasksById) {root r : Task} (hroot : root ∈ tasksById.values)
    (hseen : ∀ id ∈ seen, ∃ t ∈ tasksById.values, t.id = id ∧
      root.attempt.toNat < t.attempt.toNat)
    (h : rootFrom tasksById turns seen root = some r) :
    r ∈ tasksById.values ∧ Relation.ReflTransGen (Link tasksById) r root ∧
      ∀ b, ¬Link tasksById b r := by
  induction turns generalizing seen root with
  | zero => cases h
  | succ turns ih =>
    unfold rootFrom at h
    split at h
    · rename_i hnone
      cases h
      refine ⟨hroot, .refl, fun b hlink => ?_⟩
      have hretry := hlink.2.2
      rw [hnone] at hretry
      cases hretry
    · rename_i parent hparent
      split at h
      · rename_i hmem
        obtain ⟨t, ht, hid, hlt⟩ := hseen _ hmem
        obtain rfl := hlaw.id_inj ht hroot hid
        omega
      split at h
      · rename_i hget
        cases h
        refine ⟨hroot, .refl, fun b hlink => ?_⟩
        have hid := Option.some.inj (hparent.symm.trans hlink.2.2)
        rw [hid, hlaw.get_id hlink.1] at hget
        cases hget
      · rename_i previous hget
        have hprevious := mem_values.2 ⟨_, mem_of_get hget⟩
        have hid := hlaw.keyed _ _ (mem_of_get hget)
        have hlink : Link tasksById previous root := ⟨hprevious, hroot, hid ▸ hparent⟩
        have hattempt := hlaw.attempt hlink
        obtain ⟨hr, hpath, hfirst⟩ := ih hprevious (by
          intro id hmem
          rcases List.mem_cons.1 hmem with rfl | hmem
          · exact ⟨root, hroot, rfl, by omega⟩
          · obtain ⟨t, ht, htid, hlt⟩ := hseen id hmem
            exact ⟨t, ht, htid, by omega⟩) h
        exact ⟨hr, hpath.tail hlink, hfirst⟩

/-- Where the second loop is: the chain follows the links from a task without
a parent, and goes on with the child of its last task. -/
structure Walk (tasksById : TasksById) (seen : List TaskId) (chain : List Task)
    (current : Option Task) : Prop where
  seen : ∀ id, id ∈ seen ↔ id ∈ chain.map (·.id)
  values : ∀ t ∈ chain, t ∈ tasksById.values
  follows : (chain ++ current.toList).IsChain (Link tasksById)
  first : ∀ {a b}, (chain ++ current.toList).head? = some a → ¬Link tasksById b a
  next : ∀ {t}, current = some t → t ∈ tasksById.values
  last : ∀ {a b}, current = none → chain.getLast? = some a → ¬Link tasksById a b

theorem Walk.attempt_lt (hlaw : RetryLaw tasksById) {chain : List Task} {t : Task}
    (h : Walk tasksById seen chain (some t)) :
    ∀ u ∈ chain, u.attempt.toNat < t.attempt.toNat := by
  have htrans : IsTrans Task fun a b => a.attempt.toNat < b.attempt.toNat :=
    ⟨fun a b c => Nat.lt_trans⟩
  have hpairs : (chain ++ [t]).Pairwise fun a b => a.attempt.toNat < b.attempt.toNat := by
    apply List.isChain_iff_pairwise.1
    apply h.follows.imp
    intro a b hlink
    have := hlaw.attempt hlink
    omega
  intro u hu
  exact (List.pairwise_append.1 hpairs).2.2 u hu t (by simp)

/-- A task that goes on the chain was not seen. -/
theorem Walk.fresh (hlaw : RetryLaw tasksById) {chain : List Task} {t : Task}
    (h : Walk tasksById seen chain (some t)) : t.id ∉ seen := by
  intro hmem
  obtain ⟨u, hu, hid⟩ := List.mem_map.1 ((h.seen _).1 hmem)
  obtain rfl := hlaw.id_inj (h.values u hu) (h.next rfl) hid
  exact Nat.lt_irrefl _ (h.attempt_lt hlaw u hu)

/-- A turn of the second loop. -/
theorem Walk.turn (hlaw : RetryLaw tasksById) {chain : List Task} {t : Task}
    (h : Walk tasksById seen chain (some t)) :
    Walk tasksById (t.id :: seen) (chain ++ [t])
      (nextAttempt tasksById taskOrder (t.id :: seen) t) where
  seen id := by simp [h.seen, or_comm]
  values := by
    intro u hu
    rcases List.mem_append.1 hu with hu | hu
    · exact h.values u hu
    · obtain rfl := List.mem_singleton.1 hu
      exact h.next rfl
  follows := by
    cases hnext : nextAttempt tasksById taskOrder (t.id :: seen) t with
    | none => simpa using h.follows
    | some next =>
      obtain ⟨hvalues, hretry, -⟩ := nextAttempt_eq_some hnext
      have hlink : Link tasksById t next := ⟨h.next rfl, hvalues, hretry⟩
      rw [Option.toList_some, List.append_assoc, List.singleton_append,
        List.isChain_append_cons_cons]
      exact ⟨h.follows, hlink, by simp⟩
  first := by
    intro a b ha
    apply h.first
    rw [List.head?_append] at ha ⊢
    cases chain <;> simpa using ha
  next hnext := (nextAttempt_eq_some hnext).1
  last := by
    intro a b hnone ha hlink
    obtain rfl : t = a := by simpa using ha
    -- a child that was seen would be an earlier attempt
    have hseen := nextAttempt_eq_none hnone b hlink.2.1 hlink.2.2
    have hattempt := hlaw.attempt hlink
    rcases List.mem_cons.1 hseen with hid | hseen
    · obtain rfl := hlaw.id_inj hlink.2.1 hlink.1 hid
      omega
    · obtain ⟨u, hu, hid⟩ := List.mem_map.1 ((h.seen _).1 hseen)
      obtain rfl := hlaw.id_inj (h.values u hu) hlink.2.1 hid
      have := h.attempt_lt hlaw u hu
      omega

theorem chainFrom_spec (hlaw : RetryLaw tasksById) {chain l : List Task} {current : Option Task}
    (hwalk : Walk tasksById seen chain current)
    (h : chainFrom tasksById taskOrder turns chain seen current = some l) :
    Line (Link tasksById) l ∧ ∀ t ∈ chain ++ current.toList, t ∈ l := by
  induction turns generalizing chain seen current with
  | zero => cases h
  | succ turns ih =>
    unfold chainFrom at h
    split at h
    · cases h
      have hfollows := hwalk.follows
      have hfirst := @hwalk.first
      rw [Option.toList_none, List.append_nil] at hfollows hfirst
      refine ⟨⟨hfollows, hfirst, hwalk.last rfl⟩, by simp⟩
    · rename_i t
      rw [if_neg (hwalk.fresh hlaw)] at h
      obtain ⟨hline, hmem⟩ := ih (hwalk.turn hlaw) h
      refine ⟨hline, fun u hu => hmem u (List.mem_append_left _ ?_)⟩
      simpa using hu

/-- The whole line of a task. -/
theorem retryChain_line (hlaw : RetryLaw tasksById) {task : Task} {chain : List Task}
    (htask : task ∈ tasksById.values) (h : retryChain tasksById taskOrder turns task = some chain) :
    Line (Link tasksById) chain ∧ task ∈ chain := by
  obtain ⟨root, hroot, hchain⟩ := Option.bind_eq_some_iff.1 h
  obtain ⟨hvalues, hpath, hfirst⟩ := rootFrom_spec hlaw htask (by simp) hroot
  have hwalk : Walk tasksById [] [] (some root) :=
    { seen := by simp, values := by simp, follows := by simp,
      first := by
        intro a b ha
        obtain rfl : root = a := by simpa using ha
        exact hfirst b
      next := by
        intro t ht
        obtain rfl := Option.some.inj ht
        exact hvalues
      last := by
        intro a b hnone
        cases hnone }
  obtain ⟨hline, hmem⟩ := chainFrom_spec hlaw hwalk hchain
  refine ⟨hline, ?_⟩
  have hrootmem : root ∈ chain := hmem root (by simp)
  clear h hroot hchain hwalk hmem hfirst
  induction hpath with
  | refl => exact hrootmem
  | tail _ hlink ih => exact hline.child hlaw.linear (ih hlink.1) hlink

end

/-- **Tasks of one store obey the law**, however few of them are there. -/
theorem retryLaw_of_store {db : Db} (hdb : store.Reachable db) (tasksById : TasksById)
    (h : ∀ id t, (id, t) ∈ tasksById.entries → ∃ row ∈ db.tasks, id = row.id ∧ t.id = row.id ∧
      t.retryOf = row.retryOf ∧ t.attempt.toNat = row.attempt) : RetryLaw tasksById := by
  have hchained := reachable_chained hdb
  have keyed : ∀ id t, (id, t) ∈ tasksById.entries → t.id = id := by
    intro id t hmem
    obtain ⟨row, -, rfl, hid, -⟩ := h id t hmem
    exact hid
  have rowOf : ∀ t ∈ tasksById.values, ∃ row ∈ db.tasks, t.id = row.id ∧ t.retryOf = row.retryOf ∧
      t.attempt.toNat = row.attempt := by
    intro t ht
    obtain ⟨id, hmem⟩ := mem_values.1 ht
    obtain ⟨row, hrow, -, hrest⟩ := h id t hmem
    exact ⟨row, hrow, hrest⟩
  refine ⟨keyed, ?_, ?_⟩
  · intro a b c hb hc
    obtain ⟨rb, hrb, hbid, hbretry, -⟩ := rowOf b hb.2.1
    obtain ⟨rc, hrc, hcid, hcretry, -⟩ := rowOf c hc.2.1
    have hbc : rb = rc := by
      apply hchained.oneChild rb hrb rc hrc
      · rw [← hbretry, hb.2.2]
        rfl
      · rw [← hbretry, ← hcretry, hb.2.2, hc.2.2]
    obtain ⟨i, hbmem⟩ := mem_values.1 hb.2.1
    obtain ⟨j, hcmem⟩ := mem_values.1 hc.2.1
    have hij : i = j := by
      rw [← keyed i b hbmem, ← keyed j c hcmem, hbid, hcid, hbc]
    subst hij
    exact Option.some.inj ((get_of_mem hbmem).symm.trans (get_of_mem hcmem))
  · intro a b hlink
    obtain ⟨ra, hra, haid, -, haattempt⟩ := rowOf a hlink.1
    obtain ⟨rb, hrb, -, hbretry, hbattempt⟩ := rowOf b hlink.2.1
    have hretry : rb.retryOf = some ra.id := by rw [← hbretry, hlink.2.2, haid]
    obtain ⟨parent, hparent, hfrom⟩ := hchained.parents rb hrb (by rw [hretry]; rfl)
    have hid : parent.id = ra.id := Option.some.inj (hfrom.link.symm.trans hretry)
    obtain rfl := Chained.row_inj hchained.ids hparent hra hid
    rw [hbattempt, haattempt, hfrom.attempt]

/-- **`retryChain`.** Whatever the client holds, the loops end within a turn
more than it holds tasks, and no task is in the chain twice; under the store's
law the chain is the task and all it is connected to, in the order of the
attempts. -/
theorem retry_chain (tasksById : TasksById) (taskOrder : List TaskId) (task : Task)
    (htask : task ∈ tasksById.values) :
    ∃ chain,
      (∀ turns, tasksById.entries.length < turns →
        retryChain tasksById taskOrder turns task = some chain) ∧
      (chain.map (·.id)).Nodup ∧
      (RetryLaw tasksById →
        (∀ t, t ∈ chain ↔ Connected (Link tasksById) task t) ∧
          chain.Pairwise fun a b => a.attempt < b.attempt) := by
  have hunseen : unseen tasksById [] < tasksById.entries.length + 1 := Nat.lt_succ_of_le unseen_le
  obtain ⟨root, hvalues, hroot⟩ := rootFrom_turns htask hunseen
  obtain ⟨chain, hchain⟩ : ∃ chain, chainFrom tasksById taskOrder (tasksById.entries.length + 1) [] []
      (some root) = some chain := by
    apply chainFrom_turns _ hunseen
    intro t ht
    obtain rfl := Option.some.inj ht
    exact hvalues
  have hrun : ∀ turns, tasksById.entries.length < turns →
      retryChain tasksById taskOrder turns task = some chain := by
    intro turns hturns
    rw [retryChain, rootFrom_mono hroot hturns, Option.bind_some]
    exact chainFrom_mono hchain hturns
  refine ⟨chain, hrun, chainFrom_nodup hchain (by simp) (by simp), ?_⟩
  intro hlaw
  obtain ⟨hline, hmem⟩ := retryChain_line hlaw htask (hrun _ (Nat.lt_succ_self _))
  refine ⟨fun t => hline.mem_iff hlaw.linear hmem, ?_⟩
  apply (hline.increasing hlaw.linear).imp
  intro a b hlt
  exact UInt32.lt_iff_toNat_lt.2 hlt

/-- An attempt of one line, by its number. -/
def sampleAttempt (attempt : UInt32) : Task where
  id := ⟨BitVec.ofNat 128 attempt.toNat⟩
  clientRequestId := ⟨BitVec.ofNat 128 attempt.toNat⟩
  repositoryId := ⟨0#128⟩
  prompt := "prompt"
  status := .failed
  attempt := attempt
  retryOf := if attempt = 1 then none else some ⟨BitVec.ofNat 128 (attempt.toNat - 1)⟩
  createdAt := .epoch
  startedAt := none
  finishedAt := none
  lastEventId := .first
  failure := none

/-- The second of three attempts, while the client does not hold the first. -/
theorem retry_chain_sample :
    ∃ tasksById : TasksById, RetryLaw tasksById ∧ ∃ chain : List Task,
      retryChain tasksById [] 3 (sampleAttempt 2) = some chain ∧
      (∀ t, t ∈ chain ↔ Connected (Link tasksById) (sampleAttempt 2) t) ∧
      chain.map (·.attempt) = [2, 3] := by
  let tasksById : TasksById :=
    ⟨[((sampleAttempt 3).id, sampleAttempt 3), ((sampleAttempt 2).id, sampleAttempt 2)], by decide⟩
  have hvalues : ∀ {t}, t ∈ tasksById.values → t = sampleAttempt 3 ∨ t = sampleAttempt 2 := by
    intro t ht
    simpa [tasksById, TasksById.values] using ht
  have hlink : ∀ {a b}, Link tasksById a b → a = sampleAttempt 2 ∧ b = sampleAttempt 3 := by
    intro a b h
    obtain ⟨ha, hb, hretry⟩ := h
    rcases hvalues ha with rfl | rfl <;> rcases hvalues hb with rfl | rfl <;>
      first | exact ⟨rfl, rfl⟩ | exact absurd hretry (by decide)
  have hlaw : RetryLaw tasksById := by
    refine ⟨?_, ?_, ?_⟩
    · intro id t h
      simp only [tasksById, List.mem_cons, Prod.mk.injEq, List.not_mem_nil, or_false] at h
      rcases h with ⟨rfl, rfl⟩ | ⟨rfl, rfl⟩ <;> rfl
    · intro a b c hb hc
      rw [(hlink hb).2, (hlink hc).2]
    · intro a b h
      rw [(hlink h).1, (hlink h).2]
      rfl
  obtain ⟨chain, hrun, -, hchain⟩ := retry_chain tasksById [] (sampleAttempt 2) (by decide)
  have hchain' : retryChain tasksById [] 3 (sampleAttempt 2) =
      some [sampleAttempt 2, sampleAttempt 3] := by decide
  refine ⟨tasksById, hlaw, chain, hrun 3 (by decide), (hchain hlaw).1, ?_⟩
  rw [hrun 3 (by decide)] at hchain'
  obtain rfl := Option.some.inj hchain'
  rfl

end CodingAgent.L5.Web.RetryChain
