import Mathlib.Data.List.Chain
import Mathlib.Data.List.Pairwise
import Mathlib.Logic.Relation

/-!
# Lines of descent

A relation in which everything has at most one parent and at most one child,
each ranked one above its parent. What is connected through it lies on one
line, and a list that follows the links from an element without a parent to
one without a child is the whole of it.

* `Line.mem_iff`: such a list has exactly the connected elements.
* `Line.increasing`: in the order of their ranks.
-/
namespace CodingAgent.Lineage

variable {α : Type} {link : α → α → Prop} {rank : α → Nat} {line : List α} {a b : α}

/-- At most one parent and one child, one rank apart. -/
structure Linear (link : α → α → Prop) (rank : α → Nat) : Prop where
  oneParent : ∀ {a b c}, link a c → link b c → a = b
  oneChild : ∀ {a b c}, link a b → link a c → b = c
  rank : ∀ {a b}, link a b → rank b = rank a + 1

/-- Joined by links in either direction. -/
def Connected (link : α → α → Prop) : α → α → Prop := Relation.EqvGen link

/-- A list that follows the links and cannot be continued at either end. -/
structure Line (link : α → α → Prop) (line : List α) : Prop where
  follows : line.IsChain link
  first : ∀ {a b}, line.head? = some a → ¬link b a
  last : ∀ {a b}, line.getLast? = some a → ¬link a b

theorem Line.child (hlinear : Linear link rank) (h : Line link line) (ha : a ∈ line)
    (hlink : link a b) : b ∈ line := by
  obtain ⟨before, after, rfl⟩ := List.append_of_mem ha
  cases after with
  | nil => exact absurd hlink (h.last (by simp))
  | cons c after =>
    have hc := (List.isChain_append_cons_cons.1 h.follows).2.1
    obtain rfl := hlinear.oneChild hlink hc
    simp

theorem Line.parent (hlinear : Linear link rank) (h : Line link line) (ha : a ∈ line)
    (hlink : link b a) : b ∈ line := by
  obtain ⟨before, after, rfl⟩ := List.append_of_mem ha
  rcases List.eq_nil_or_concat before with rfl | ⟨before, c, rfl⟩
  · exact absurd hlink (h.first (by simp))
  · have hfollows := h.follows
    rw [List.concat_eq_append, List.append_assoc, List.singleton_append] at hfollows
    have hc := (List.isChain_append_cons_cons.1 hfollows).2.1
    obtain rfl := hlinear.oneParent hlink hc
    simp

theorem Line.connected (h : Line link line) (ha : a ∈ line) (hb : b ∈ line) :
    Connected link a b := by
  have htrans : IsTrans α (Connected link) := ⟨fun a b c => .trans a b c⟩
  have hsymm : Std.Symm (Connected link) := ⟨fun a b => .symm a b⟩
  have hpairs : line.Pairwise (Connected link) :=
    List.isChain_iff_pairwise.1 (h.follows.imp fun a b => .rel a b)
  exact hpairs.forall_of_forall (fun a _ => .refl a) ha hb

/-- **The line of an element is what it is connected to.** -/
theorem Line.mem_iff (hlinear : Linear link rank) (h : Line link line) (ha : a ∈ line) :
    b ∈ line ↔ Connected link a b := by
  constructor
  · exact h.connected ha
  · intro hab
    -- neither direction of a link leaves the line
    have closed : ∀ {a b}, Connected link a b → (a ∈ line ↔ b ∈ line) := by
      intro a b hab
      induction hab with
      | rel a b hlink => exact ⟨fun ha => h.child hlinear ha hlink, fun hb => h.parent hlinear hb hlink⟩
      | refl a => exact Iff.rfl
      | symm a b _ ih => exact ih.symm
      | trans a b c _ _ ih ih' => exact ih.trans ih'
    exact (closed hab).1 ha

/-- **In the order of their ranks.** -/
theorem Line.increasing (hlinear : Linear link rank) (h : Line link line) :
    line.Pairwise fun a b => rank a < rank b := by
  have htrans : IsTrans α fun a b => rank a < rank b := ⟨fun a b c => Nat.lt_trans⟩
  apply List.isChain_iff_pairwise.1
  apply h.follows.imp
  intro a b hlink
  have := hlinear.rank hlink
  omega

end CodingAgent.Lineage
