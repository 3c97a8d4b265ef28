import CodingAgent.Core.IdLog
import Mathlib.Data.List.Induction

/-!
# Event-sourced streams over one log

Many streams (one for each key of type `T`) share one log of events with
increasing keys. The state of a stream is the fold of its own events
(`replay`); an event may be appended when it is admissible in the state its
stream then has (`Valid`).

* `Valid.stream_inv`: the induction rule. What holds of the empty stream and
  is kept by each admissible event holds of every stream of a valid log,
  together with its replayed state.
* `Valid.left`, `cut_self`, `cut_next`: prefixes of a valid log are valid, a
  log cut behind its last key is the log, and the next event ends the next cut.
* `replay_append`: later events continue the fold.
-/
namespace CodingAgent

open IdLog

structure EventModel (E S T K : Type) where
  key : E → K
  stream : E → T
  init : S
  apply : S → E → S
  adm : S → E → Prop

namespace EventModel

variable {E S T K : Type}

section Fold
variable [DecidableEq T] (m : EventModel E S T K)

def streamOf (log : List E) (t : T) : List E := log.filter fun e => m.stream e = t

def replay (log : List E) (t : T) : S := (m.streamOf log t).foldl m.apply m.init

variable {m}

theorem streamOf_append (log new : List E) (t : T) :
    m.streamOf (log ++ new) t = m.streamOf log t ++ m.streamOf new t :=
  List.filter_append ..

theorem replay_append (log new : List E) (t : T) :
    m.replay (log ++ new) t = (m.streamOf new t).foldl m.apply (m.replay log t) := by
  rw [replay, streamOf_append, List.foldl_append]; rfl

theorem streamOf_snoc (log : List E) (e : E) (t : T) :
    m.streamOf (log ++ [e]) t =
      if m.stream e = t then m.streamOf log t ++ [e] else m.streamOf log t := by
  rw [streamOf_append]
  by_cases h : m.stream e = t <;> simp [streamOf, h]

theorem replay_snoc (log : List E) (e : E) (t : T) :
    m.replay (log ++ [e]) t =
      if m.stream e = t then m.apply (m.replay log t) e else m.replay log t := by
  rw [replay, streamOf_snoc]
  split <;> simp [replay]

theorem replay_snoc_self (log : List E) (e : E) :
    m.replay (log ++ [e]) (m.stream e) = m.apply (m.replay log (m.stream e)) e := by
  rw [replay_snoc, if_pos rfl]

theorem mem_streamOf {log : List E} {t : T} {e : E} :
    e ∈ m.streamOf log t ↔ e ∈ log ∧ m.stream e = t := by
  simp [streamOf, List.mem_filter]

end Fold

section Cut
variable [LinearOrder K] (m : EventModel E S T K)

/-- The events at or below `v`. -/
def cut (v : K) (log : List E) : List E := log.filter fun e => m.key e ≤ v

variable {m}

theorem mem_cut {log : List E} {v : K} {e : E} : e ∈ m.cut v log ↔ e ∈ log ∧ m.key e ≤ v := by
  simp [EventModel.cut, List.mem_filter]

theorem cut_self {log : List E} {v : K} (h : ∀ x ∈ log, m.key x ≤ v) : m.cut v log = log :=
  List.filter_eq_self.2 (by simpa using h)

/-- Versions with the same events at or below them cut alike. -/
theorem cut_congr {log : List E} {v w : K} (h : ∀ x ∈ log, m.key x ≤ v ↔ m.key x ≤ w) :
    m.cut v log = m.cut w log :=
  List.filter_congr fun x hx => by simp [h x hx]

/-- The next event beyond a version is what its own version adds. -/
theorem cut_next {log : List E} (hl : Increasing m.key log) {v : K} {e : E}
    (h : Next m.key log v e) : m.cut (m.key e) log = m.cut v log ++ [e] := by
  induction log with
  | nil => cases h.mem
  | cons x log ih =>
    obtain ⟨hx, hl⟩ := List.pairwise_cons.1 hl
    rcases List.mem_cons.1 h.mem with rfl | he
    · have hnone : ∀ w, w ≤ m.key e → m.cut w log = [] := by
        intro w hw
        simp only [cut, List.filter_eq_nil_iff, decide_eq_true_eq, not_le]
        exact fun y hy => lt_of_le_of_lt hw (hx y hy)
      have hself : m.cut (m.key e) (e :: log) = e :: m.cut (m.key e) log := by simp [cut]
      have hv : m.cut v (e :: log) = m.cut v log := by simp [cut, h.lt]
      rw [hself, hv, hnone _ (le_refl _), hnone _ (le_of_lt h.lt)]
      rfl
    · have hxe : m.key x < m.key e := hx e he
      have hxv : m.key x ≤ v := by
        refine le_of_not_gt fun hgt => ?_
        exact absurd (h.least x List.mem_cons_self hgt) (not_le_of_gt hxe)
      have hcut : ∀ w, m.key x ≤ w → m.cut w (x :: log) = x :: m.cut w log := by
        intro w hw
        simp [cut, hw]
      rw [hcut _ (le_of_lt hxe), hcut v hxv,
        ih hl ⟨he, h.lt, fun y hy => h.least y (List.mem_cons_of_mem x hy)⟩]
      rfl

/-- A cut takes a prefix: what is left out is beyond it. -/
theorem cut_prefix {log : List E} (hl : Increasing m.key log) (v : K) :
    ∃ post, log = m.cut v log ++ post ∧ ∀ x ∈ post, v < m.key x := by
  induction log using List.reverseRecOn with
  | nil => exact ⟨[], rfl, by simp⟩
  | append_singleton log e ih =>
    obtain ⟨hl, -, hb⟩ := List.pairwise_append.1 hl
    obtain ⟨post, hpost, hv⟩ := ih hl
    by_cases he : m.key e ≤ v
    · refine ⟨[], ?_, by simp⟩
      have hall : ∀ x ∈ log ++ [e], m.key x ≤ v := by
        intro x hx
        rcases List.mem_append.1 hx with hx | hx
        · exact le_trans (le_of_lt (hb x hx e List.mem_cons_self)) he
        · cases List.mem_singleton.1 hx; exact he
      rw [List.append_nil, cut, List.filter_eq_self.2 (by simpa using hall)]
    · refine ⟨post ++ [e], ?_, ?_⟩
      · have hc : m.cut v (log ++ [e]) = m.cut v log := by simp [cut, he]
        rw [hc, ← List.append_assoc, ← hpost]
      · intro x hx
        rcases List.mem_append.1 hx with hx | hx
        · exact hv x hx
        · cases List.mem_singleton.1 hx; exact lt_of_not_ge he

end Cut

variable [DecidableEq T] [LinearOrder K] (m : EventModel E S T K)

theorem streamOf_cut (log : List E) (t : T) (v : K) :
    m.streamOf (m.cut v log) t = m.cut v (m.streamOf log t) := by
  simp only [streamOf, cut, List.filter_filter]
  exact List.filter_congr fun x _ => Bool.and_comm ..

inductive Valid : List E → Prop
  | nil : Valid []
  | snoc {log : List E} {e : E} : Valid log → (∀ x ∈ log, m.key x < m.key e) →
    m.adm (m.replay log (m.stream e)) e → Valid (log ++ [e])

variable {m}

theorem valid_snoc_iff {log : List E} {e : E} : m.Valid (log ++ [e]) ↔
    m.Valid log ∧ (∀ x ∈ log, m.key x < m.key e) ∧ m.adm (m.replay log (m.stream e)) e := by
  constructor
  · intro h
    generalize hl : log ++ [e] = l at h
    cases h with
    | nil => simp at hl
    | snoc hv hk ha =>
      obtain ⟨rfl, he⟩ := List.append_inj' hl rfl
      cases he
      exact ⟨hv, hk, ha⟩
  · rintro ⟨hv, hk, ha⟩
    exact .snoc hv hk ha

theorem Valid.increasing {log : List E} (h : m.Valid log) : Increasing m.key log := by
  induction h with
  | nil => exact .nil
  | snoc _ hk _ ih =>
    refine ih.append (List.pairwise_singleton ..) fun x hx y hy => ?_
    cases List.mem_singleton.1 hy; exact hk x hx

theorem Valid.stream_increasing {log : List E} (h : m.Valid log) (t : T) :
    Increasing m.key (m.streamOf log t) :=
  List.Pairwise.filter _ h.increasing

theorem Valid.left {log new : List E} (h : m.Valid (log ++ new)) : m.Valid log := by
  induction new using List.reverseRecOn with
  | nil => simpa using h
  | append_singleton new e ih =>
    rw [← List.append_assoc, valid_snoc_iff] at h
    exact ih h.1

theorem Valid.beyond {log new : List E} (h : m.Valid (log ++ new)) : Beyond m.key log new :=
  fun x hx y hy => (List.pairwise_append.1 h.increasing).2.2 x hx y hy

/-- An event is admissible in the state its stream had before it. -/
theorem Valid.adm_at {pre post : List E} {e : E} (h : m.Valid (pre ++ e :: post)) :
    m.adm (m.replay pre (m.stream e)) e := by
  rw [← List.singleton_append, ← List.append_assoc] at h
  exact (valid_snoc_iff.1 h.left).2.2

/-- The induction rule for the streams of a valid log. -/
theorem Valid.stream_inv {P : T → List E → S → Prop} (nil : ∀ t, P t [] m.init)
    (step : ∀ t es s e, m.stream e = t → P t es s → (∀ x ∈ es, m.key x < m.key e) →
      m.adm s e → P t (es ++ [e]) (m.apply s e))
    {log : List E} (h : m.Valid log) (t : T) : P t (m.streamOf log t) (m.replay log t) := by
  induction h with
  | nil => exact nil t
  | @snoc log e _ hk ha ih =>
    rw [streamOf_snoc, replay_snoc]
    split
    · rename_i ht
      exact step t _ _ e ht ih (fun x hx => hk x (mem_streamOf.1 hx).1) (ht ▸ ha)
    · exact ih

theorem Valid.cut {log : List E} (h : m.Valid log) (v : K) : m.Valid (m.cut v log) := by
  obtain ⟨post, hpost, -⟩ := cut_prefix h.increasing v
  rw [hpost] at h
  exact h.left

end EventModel

end CodingAgent
