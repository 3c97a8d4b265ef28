import CodingAgent.Core.TextOrder
import CodingAgent.L4App.TaskManager
import CodingAgent.L2Store.Ops
import CodingAgent.L1Domain.Serde

/-!
# Two orders of tasks (`coding-agent-store/src/tasks.rs`, `task_manager.rs`)

`recover_incomplete` lets SQLite order the tasks by two text columns;
`claim_queued` orders them by the instants and by the text of the ids. The model
orders both by values (`recoveryOrder`, `claimOrder`); here are the orders of the
source.

* `text_lt_iff`, `id_text_lt_iff`: the texts of timestamps and ids are ordered
  byte by byte as their values are.
* `timestamp_text_order`: hence the two orders are the same.
-/
namespace CodingAgent.L4.App.TaskOrder
open CodingAgent.L1.Domain CodingAgent.L2.Store TextOrder

/-- The order of `str` and of the `BINARY` collation: byte by byte. -/
def textLt (a b : String) : Prop := Utf8.encode a.toList < Utf8.encode b.toList

instance (a b : String) : Decidable (textLt a b) :=
  inferInstanceAs (Decidable (Utf8.encode a.toList < Utf8.encode b.toList))

/-- What both orders look at. -/
structure Key where
  createdAt : UtcTimestamp
  id : TaskId
  deriving DecidableEq

def rowKey (row : TaskRow) : Key := ⟨row.createdAt, row.id⟩

def taskKey (task : Task) : Key := ⟨task.createdAt, task.id⟩

/-- `ORDER BY created_at, id`, on the columns.
mirrors crates/coding-agent-store/src/tasks.rs:306-312 -/
def sqlOrder (a b : Key) : Prop :=
  textLt a.createdAt.text b.createdAt.text ∨
    a.createdAt.text = b.createdAt.text ∧ ¬textLt b.id.text a.id.text

/-- mirrors crates/coding-agent-app/src/task_manager.rs:588-592 -/
def sortOrder (a b : Key) : Prop :=
  a.createdAt.nanos < b.createdAt.nanos ∨
    a.createdAt.nanos = b.createdAt.nanos ∧ ¬textLt b.id.text a.id.text

/-! ## Texts -/

theorem ascii_append {x y : List Char} (hx : IsAscii x) (hy : IsAscii y) : IsAscii (x ++ y) := by
  intro c hc
  rcases List.mem_append.1 hc with hc | hc
  · exact hx c hc
  · exact hy c hc

theorem ascii_cons {c : Char} {x : List Char} (hc : c.toNat < 128) (hx : IsAscii x) :
    IsAscii (c :: x) := by
  intro d hd
  rcases List.mem_cons.1 hd with rfl | hd
  · exact hc
  · exact hx d hd

theorem ascii_numeral {b : Nat} (hb : 0 < b) (hb16 : b ≤ 16) (w n : Nat) :
    IsAscii (Digits.numeral b w n) := by
  intro c hc
  obtain ⟨d, hd, rfl⟩ := Digits.mem_numeral hb hc
  have key : ∀ d < 16, d.digitChar.toNat < 128 := by decide
  exact key d (Nat.lt_of_lt_of_le hd hb16)

theorem ascii_format (t : Nat) : IsAscii (Rfc3339.format t) := by
  have digits : ∀ w n, IsAscii (Digits.numeral 10 w n) :=
    ascii_numeral (by decide) (by decide)
  have last : IsAscii ['Z'] := ascii_cons (by decide) nofun
  refine ascii_append (ascii_append (digits _ _) (ascii_cons (by decide)
    (ascii_append (digits _ _) (ascii_cons (by decide) (digits _ _))))) (ascii_cons (by decide) ?_)
  refine ascii_append (ascii_append (digits _ _) (ascii_cons (by decide)
    (ascii_append (digits _ _) (ascii_cons (by decide) (digits _ _))))) (ascii_cons (by decide) ?_)
  exact ascii_append (digits _ _) last

theorem ascii_uuid (n : Nat) : IsAscii (UuidText.format n) := by
  have digits : ∀ w n, IsAscii (Digits.numeral 16 w n) :=
    ascii_numeral (by decide) (by decide)
  exact ascii_append (digits _ _) (ascii_cons (by decide) (ascii_append (digits _ _)
    (ascii_cons (by decide) (ascii_append (digits _ _) (ascii_cons (by decide)
      (ascii_append (digits _ _) (ascii_cons (by decide) (digits _ _))))))))

/-- Timestamps are ordered as their texts are. -/
theorem text_lt_iff (a b : UtcTimestamp) : textLt a.text b.text ↔ a.nanos < b.nanos := by
  rw [textLt, UtcTimestamp.text, UtcTimestamp.text, String.toList_ofList, String.toList_ofList,
    bytes_lt_iff (ascii_format _) (ascii_format _), format_lt_iff a.instant_lt b.instant_lt]
  have ha := a.lower
  have hb := b.lower
  omega

theorem text_inj (a b : UtcTimestamp) : a.text = b.text ↔ a.nanos = b.nanos := by
  have hlt := text_lt_iff a b
  have hgt := text_lt_iff b a
  constructor
  · intro h
    rw [h] at hlt hgt
    have hirrefl : ¬textLt b.text b.text := List.lt_irrefl _
    have hnlt : ¬a.nanos < b.nanos := fun h => hirrefl (hlt.2 h)
    have hngt : ¬b.nanos < a.nanos := fun h => hirrefl (hgt.2 h)
    omega
  · intro h
    obtain ⟨a, ha, ha'⟩ := a
    obtain ⟨b, hb, hb'⟩ := b
    obtain rfl : a = b := h
    rfl

/-- Ids are ordered as their texts are. -/
theorem id_text_lt_iff (a b : TaskId) : textLt a.text b.text ↔ a.uuid.toNat < b.uuid.toNat := by
  rw [textLt, TaskId.text, TaskId.text, Uuid.text, Uuid.text, String.toList_ofList,
    String.toList_ofList, bytes_lt_iff (ascii_uuid _) (ascii_uuid _),
    uuid_lt_iff a.uuid.isLt b.uuid.isLt]

/-! ## The orders -/

/-- The order of the values. -/
theorem sortOrder_iff (a b : Key) : sortOrder a b ↔ a.createdAt.nanos < b.createdAt.nanos ∨
    a.createdAt.nanos = b.createdAt.nanos ∧ a.id.uuid.toNat ≤ b.id.uuid.toNat := by
  rw [sortOrder, id_text_lt_iff, Nat.not_lt]

theorem sqlOrder_iff_sortOrder (a b : Key) : sqlOrder a b ↔ sortOrder a b := by
  rw [sqlOrder, sortOrder, text_lt_iff, text_inj]

theorem recoveryOrder_iff (a b : TaskRow) : recoveryOrder a b ↔ sqlOrder (rowKey a) (rowKey b) := by
  rw [sqlOrder_iff_sortOrder, sortOrder_iff]
  rfl

theorem claimOrder_iff (a b : Task) : claimOrder a b ↔ sortOrder (taskKey a) (taskKey b) := by
  rw [sortOrder_iff]
  rfl

/-- Keys that are equal in the order are equal. -/
theorem sortOrder_antisymm {a b : Key} (hab : sortOrder a b) (hba : sortOrder b a) : a = b := by
  rw [sortOrder_iff] at hab hba
  obtain ⟨⟨n, hl, hu⟩, ⟨i⟩⟩ := a
  obtain ⟨⟨m, hl', hu'⟩, ⟨j⟩⟩ := b
  simp only at hab hba
  obtain rfl : n = m := by omega
  obtain rfl : i = j := BitVec.eq_of_toNat_eq (by omega)
  rfl

/-- **The texts of timestamps are ordered as the timestamps are.** Reading undoes
writing, and byte by byte the texts are ordered as the instants are; so however
SQLite orders the rows of some tasks by their columns, and however the manager
sorts the tasks, the two orders are the same. -/
theorem timestamp_text_order :
    (∀ a : UtcTimestamp, UtcTimestamp.parseRfc3339 a.text = .ok a) ∧
    (∀ a b : UtcTimestamp, a.nanos < b.nanos ↔ textLt a.text b.text) ∧
    (∀ a b : TaskRow, recoveryOrder a b ↔ sqlOrder (rowKey a) (rowKey b)) ∧
    (∀ a b : Task, claimOrder a b ↔ sortOrder (taskKey a) (taskKey b)) ∧
    ∀ (rows ordered : List TaskRow) (tasks queued : List Task),
      (rows.map rowKey).Perm (tasks.map taskKey) →
      ordered.Perm rows → ordered.Pairwise (fun a b => sqlOrder (rowKey a) (rowKey b)) →
      queued.Perm tasks → queued.Pairwise (fun a b => sortOrder (taskKey a) (taskKey b)) →
      ordered.map (·.id) = queued.map (·.id) := by
  refine ⟨UtcTimestamp.parseRfc3339_text, fun a b => (text_lt_iff a b).symm, recoveryOrder_iff,
    claimOrder_iff, ?_⟩
  intro rows ordered tasks queued hsame hrows hordered htasks hqueued
  have hperm : (ordered.map rowKey).Perm (queued.map taskKey) :=
    ((hrows.map rowKey).trans hsame).trans (htasks.map taskKey).symm
  have hordered' : (ordered.map rowKey).Pairwise sortOrder := by
    rw [List.pairwise_map]
    exact hordered.imp fun {a b} h => (sqlOrder_iff_sortOrder _ _).1 h
  have hqueued' : (queued.map taskKey).Pairwise sortOrder := by
    rw [List.pairwise_map]
    exact hqueued
  have hkeys : ordered.map rowKey = queued.map taskKey :=
    hperm.eq_of_pairwise (fun a b _ _ => sortOrder_antisymm) hordered' hqueued'
  have hids := congrArg (List.map Key.id) hkeys
  rw [List.map_map, List.map_map] at hids
  exact hids

/-- Tasks of one instant. -/
def sampleTask (id : Uuid) : Task where
  id := ⟨id⟩
  clientRequestId := ⟨id⟩
  repositoryId := ⟨1⟩
  prompt := "p"
  status := .queued
  attempt := 1
  retryOf := none
  createdAt := ⟨314159, by decide, by decide⟩
  startedAt := none
  finishedAt := none
  lastEventId := ⟨271828, by decide, by decide⟩
  failure := none

/-- The rows of two tasks come in the other order than the tasks. -/
theorem timestamp_text_order_sample :
    ([sampleTask 11, sampleTask 12].map TaskRow.ofTask).map (·.id) =
      [sampleTask 11, sampleTask 12].map (·.id) := by
  have hsql : sqlOrder (rowKey (.ofTask (sampleTask 11))) (rowKey (.ofTask (sampleTask 12))) := by
    unfold sqlOrder
    decide +kernel
  have hsort : sortOrder (taskKey (sampleTask 11)) (taskKey (sampleTask 12)) := by
    unfold sortOrder
    decide +kernel
  exact timestamp_text_order.2.2.2.2 ([sampleTask 12, sampleTask 11].map TaskRow.ofTask) _
    [sampleTask 11, sampleTask 12] _ (.swap _ _ _) (.swap _ _ _) (List.pairwise_pair.2 hsql)
    (.refl _) (List.pairwise_pair.2 hsort)

end CodingAgent.L4.App.TaskOrder
