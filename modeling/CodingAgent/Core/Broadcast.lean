import CodingAgent.Core.IdLog

/-!
# A lossy broadcast of a log

A publisher sends the entries of a log, in order and without gaps, to a
receiver with a bounded buffer. When the receiver is too slow, a prefix of
what it has not read is replaced by one `lagged` marker.

`Feed log p q d`: the receiver, which has read up to key `p`, has the items
`q` before it, and the publisher stands at `d`.

* `feed_publish`, `feed_lag`, `feed_grow`: sending, losing and appending to the
  log keep this.
-/
namespace CodingAgent.IdLog

inductive FeedItem (E : Type) where
  | event (e : E)
  | lagged
  deriving DecidableEq, Repr

variable {E K : Type} [LinearOrder K] (key : E → K)

/-- The unread items from `p` on, against a publisher at `d`. -/
def Feed (log : List E) : K → List (FeedItem E) → K → Prop
  | p, [], d => p = d
  | p, .event e :: q, d => Next key log p e ∧ Feed log (key e) q d
  | p, .lagged :: q, d => ∃ p' ≥ p, Feed log p' q d

variable {key} {log : List E} {p d : K} {q : List (FeedItem E)}

theorem feed_le (h : Feed key log p q d) : p ≤ d := by
  induction q generalizing p with
  | nil => exact le_of_eq h
  | cons item q ih =>
    cases item with
    | event e => exact le_trans (le_of_lt h.1.lt) (ih h.2)
    | lagged =>
      obtain ⟨p', hle, h⟩ := h
      exact le_trans hle (ih h)

theorem feed_publish {e : E} (h : Feed key log p q d) (he : Next key log d e) :
    Feed key log p (q ++ [.event e]) (key e) := by
  induction q generalizing p with
  | nil =>
    have hpd : p = d := h
    subst hpd
    exact ⟨he, rfl⟩
  | cons item q ih =>
    cases item with
    | event x => exact ⟨h.1, ih h.2⟩
    | lagged =>
      obtain ⟨p', hle, h⟩ := h
      exact ⟨p', hle, ih h⟩

theorem feed_drop (n : Nat) (h : Feed key log p q d) : ∃ p' ≥ p, Feed key log p' (q.drop n) d := by
  induction n generalizing p q with
  | zero => exact ⟨p, le_refl p, h⟩
  | succ n ih =>
    cases q with
    | nil => exact ⟨p, le_refl p, h⟩
    | cons item q =>
      cases item with
      | event e =>
        obtain ⟨p', hle, h'⟩ := ih h.2
        exact ⟨p', le_trans (le_of_lt h.1.lt) hle, h'⟩
      | lagged =>
        obtain ⟨p₁, hle₁, h⟩ := h
        obtain ⟨p', hle, h'⟩ := ih h
        exact ⟨p', le_trans hle₁ hle, h'⟩

/-- Losing any prefix of the unread items. -/
theorem feed_lag (n : Nat) (h : Feed key log p q d) :
    Feed key log p (.lagged :: q.drop n) d := feed_drop n h

theorem feed_grow {new : List E} (hb : Beyond key log new) (h : Feed key log p q d) :
    Feed key (log ++ new) p q d := by
  induction q generalizing p with
  | nil => exact h
  | cons item q ih =>
    cases item with
    | event e => exact ⟨next_grow hb h.1, ih h.2⟩
    | lagged =>
      obtain ⟨p', hle, h⟩ := h
      exact ⟨p', hle, ih h⟩

end CodingAgent.IdLog
