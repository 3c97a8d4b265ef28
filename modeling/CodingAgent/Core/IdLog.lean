import Mathlib.Data.List.Sort
import Mathlib.Order.Basic
import Mathlib.Order.Lattice

/-!
# Logs with increasing keys, read without gaps

A log is a list whose keys strictly increase; it only grows at the end, by
entries with larger keys. A reader that starts at a cursor `c` and never skips
or repeats an entry reads a list `es` with `Contig key log c es`: each entry is
the least one of the log beyond the one before it (`Next`).

* `contig_append`: such readings compose.
* `contig_grow`: they stay valid while the log grows.
* `contig_pairwise`, `contig_complete`: they are strictly increasing and hold
  every entry between the cursor and where they stopped (`endKey`), so nothing
  is lost or read twice.
* `contig_filter`, `contig_filter_le`, `contig_take`: a page of the log beyond a
  cursor is such a reading.
-/
namespace CodingAgent.IdLog

variable {E K : Type} [LinearOrder K] (key : E → K)

def Increasing (log : List E) : Prop := log.Pairwise fun a b => key a < key b

/-- `e` is the first entry of `log` beyond `c`. -/
structure Next (log : List E) (c : K) (e : E) : Prop where
  mem : e ∈ log
  lt : c < key e
  least : ∀ x ∈ log, c < key x → key e ≤ key x

instance (log : List E) (c : K) (e : E) [DecidableEq E] : Decidable (Next key log c e) :=
  decidable_of_iff (e ∈ log ∧ c < key e ∧ ∀ x ∈ log, c < key x → key e ≤ key x)
    ⟨fun h => ⟨h.1, h.2.1, h.2.2⟩, fun h => ⟨h.mem, h.lt, h.least⟩⟩

/-- `es` is read off `log` from `c` on, without gaps. -/
def Contig (log : List E) : K → List E → Prop
  | _, [] => True
  | c, e :: es => Next key log c e ∧ Contig log (key e) es

/-- The cursor after reading `es` from `c`. -/
def endKey : K → List E → K
  | c, [] => c
  | _, e :: es => endKey (key e) es

/-- Everything appended to `log` is beyond all of it. -/
def Beyond (log new : List E) : Prop := ∀ x ∈ log, ∀ y ∈ new, key x < key y

variable {key}

omit [LinearOrder K] in
theorem endKey_append (c : K) (es fs : List E) :
    endKey key c (es ++ fs) = endKey key (endKey key c es) fs := by
  induction es generalizing c with
  | nil => rfl
  | cons e es ih => exact ih (key e)

omit [LinearOrder K] in
@[simp] theorem endKey_snoc (c : K) (es : List E) (e : E) : endKey key c (es ++ [e]) = key e := by
  rw [endKey_append]; rfl

omit [LinearOrder K] in
theorem endKey_cases (c : K) (es : List E) :
    endKey key c es = c ∨ ∃ e ∈ es, endKey key c es = key e := by
  induction es generalizing c with
  | nil => exact .inl rfl
  | cons e es ih =>
    rcases ih (key e) with h | ⟨x, hx, h⟩
    · exact .inr ⟨e, List.mem_cons_self, h⟩
    · exact .inr ⟨x, List.mem_cons_of_mem e hx, h⟩

theorem contig_append {log : List E} {c : K} {es fs : List E} :
    Contig key log c (es ++ fs) ↔ Contig key log c es ∧ Contig key log (endKey key c es) fs := by
  induction es generalizing c with
  | nil => simp [Contig, endKey]
  | cons e es ih => simp only [List.cons_append, Contig, endKey, ih, and_assoc]

theorem contig_snoc {log : List E} {c : K} {es : List E} {e : E} (h : Contig key log c es)
    (hn : Next key log (endKey key c es) e) : Contig key log c (es ++ [e]) :=
  contig_append.2 ⟨h, hn, trivial⟩

theorem next_grow {log new : List E} {c : K} {e : E} (hb : Beyond key log new)
    (h : Next key log c e) : Next key (log ++ new) c e where
  mem := List.mem_append_left new h.mem
  lt := h.lt
  least := by
    intro x hx hc
    rcases List.mem_append.1 hx with hx | hx
    · exact h.least x hx hc
    · exact le_of_lt (hb e h.mem x hx)

theorem contig_grow {log new : List E} (hb : Beyond key log new) {c : K} {es : List E}
    (h : Contig key log c es) : Contig key (log ++ new) c es := by
  induction es generalizing c with
  | nil => trivial
  | cons e es ih => exact ⟨next_grow hb h.1, ih h.2⟩

theorem contig_mem {log : List E} {c : K} {es : List E} (h : Contig key log c es) :
    ∀ e ∈ es, e ∈ log := by
  induction es generalizing c with
  | nil => intro e he; cases he
  | cons a es ih =>
    intro e he
    rcases List.mem_cons.1 he with rfl | he
    · exact h.1.mem
    · exact ih h.2 e he

theorem contig_lt {log : List E} {c : K} {es : List E} (h : Contig key log c es) :
    ∀ e ∈ es, c < key e := by
  induction es generalizing c with
  | nil => intro e he; cases he
  | cons a es ih =>
    intro e he
    rcases List.mem_cons.1 he with rfl | he
    · exact h.1.lt
    · exact lt_trans h.1.lt (ih h.2 e he)

theorem contig_le_endKey {log : List E} {c : K} {es : List E} (h : Contig key log c es) :
    c ≤ endKey key c es := by
  induction es generalizing c with
  | nil => exact le_refl c
  | cons a es ih => exact le_trans (le_of_lt h.1.lt) (ih h.2)

theorem contig_key_le_endKey {log : List E} {c : K} {es : List E} (h : Contig key log c es) :
    ∀ e ∈ es, key e ≤ endKey key c es := by
  induction es generalizing c with
  | nil => intro e he; cases he
  | cons a es ih =>
    intro e he
    rcases List.mem_cons.1 he with rfl | he
    · exact contig_le_endKey h.2
    · exact ih h.2 e he

theorem contig_pairwise {log : List E} {c : K} {es : List E} (h : Contig key log c es) :
    es.Pairwise fun a b => key a < key b := by
  induction es generalizing c with
  | nil => exact .nil
  | cons a es ih => exact .cons (contig_lt h.2) (ih h.2)

/-- Keys are unique in an increasing log. -/
theorem Increasing.inj {log : List E} (hl : Increasing key log) {x y : E} (hx : x ∈ log)
    (hy : y ∈ log) (h : key x = key y) : x = y := by
  induction log with
  | nil => cases hx
  | cons a log ih =>
    obtain ⟨ha, hl⟩ := List.pairwise_cons.1 hl
    rcases List.mem_cons.1 hx with hxa | hxl <;> rcases List.mem_cons.1 hy with hya | hyl
    · rw [hxa, hya]
    · exact absurd h (ne_of_lt (hxa ▸ ha y hyl))
    · exact absurd h.symm (ne_of_lt (hya ▸ ha x hxl))
    · exact ih hl hxl hyl

theorem Increasing.append {log new : List E} (hl : Increasing key log)
    (hn : Increasing key new) (hb : Beyond key log new) : Increasing key (log ++ new) :=
  List.pairwise_append.2 ⟨hl, hn, hb⟩

/-- No entry between the cursor and the end of the reading is missed. -/
theorem contig_complete {log : List E} (hl : Increasing key log) {c : K} {es : List E}
    (h : Contig key log c es) {x : E} (hx : x ∈ log) (hc : c < key x)
    (he : key x ≤ endKey key c es) : x ∈ es := by
  induction es generalizing c with
  | nil => exact absurd (lt_of_lt_of_le hc he) (lt_irrefl c)
  | cons a es ih =>
    rcases eq_or_lt_of_le (h.1.least x hx hc) with ha | ha
    · rw [hl.inj h.1.mem hx ha]; exact List.mem_cons_self
    · exact List.mem_cons_of_mem a (ih h.2 ha he)

/-- An entry read at some point has all earlier ones read before it. -/
theorem contig_before {log : List E} (hl : Increasing key log) {c : K} {pre post : List E} {e x : E}
    (h : Contig key log c (pre ++ e :: post)) (hx : x ∈ log) (hc : c < key x)
    (he : key x < key e) : x ∈ pre := by
  obtain ⟨hpre, hn, -⟩ := contig_append.1 h
  refine contig_complete hl hpre hx hc (le_of_not_gt fun hgt => ?_)
  exact absurd (hn.least x hx hgt) (not_le_of_gt he)

/-- A reading is exactly what the log holds between its two ends. -/
theorem contig_eq_filter {log : List E} (hl : Increasing key log) {c : K} {es : List E}
    (h : Contig key log c es) :
    es = log.filter fun e => c < key e ∧ key e ≤ endKey key c es := by
  have : Std.Irrefl fun a b : E => key a < key b := ⟨fun a => lt_irrefl (key a)⟩
  have : Std.Antisymm fun a b : E => key a < key b := ⟨fun a b ha hb => absurd hb (lt_asymm ha)⟩
  refine (contig_pairwise h).eq_of_mem_iff (hl.sublist List.filter_sublist) fun e => ?_
  simp only [List.mem_filter, decide_eq_true_eq]
  exact ⟨fun he => ⟨contig_mem h e he, contig_lt h e he, contig_key_le_endKey h e he⟩,
    fun ⟨he, hlt, hle⟩ => contig_complete hl h he hlt hle⟩

theorem contig_filter {log : List E} (hl : Increasing key log) (c : K) :
    Contig key log c (log.filter fun e => c < key e) := by
  -- generalise: a suffix of the log that holds everything beyond `c`
  suffices h : ∀ (suf : List E) (c : K), Increasing key suf → (∀ x ∈ suf, x ∈ log) →
      (∀ x ∈ log, c < key x → x ∈ suf) → Contig key log c (suf.filter fun e => c < key e) from
    h log c hl (fun _ h => h) (fun _ h _ => h)
  intro suf
  induction suf with
  | nil => intro c _ _ _; trivial
  | cons a suf ih =>
    intro c hs hsub hall
    obtain ⟨ha, hs⟩ := List.pairwise_cons.1 hs
    have hsub' : ∀ x ∈ suf, x ∈ log := fun x hx => hsub x (List.mem_cons_of_mem a hx)
    by_cases hca : c < key a
    · have htail : suf.filter (fun e => c < key e) = suf.filter (fun e => key a < key e) := by
        apply List.filter_congr
        intro x hx
        simp [ha x hx, lt_trans hca (ha x hx)]
      rw [List.filter_cons_of_pos (by simpa using hca), htail]
      refine ⟨⟨hsub a List.mem_cons_self, hca, ?_⟩, ih (key a) hs hsub' ?_⟩
      · intro x hx hcx
        rcases List.mem_cons.1 (hall x hx hcx) with rfl | hx
        · exact le_refl _
        · exact le_of_lt (ha x hx)
      · intro x hx hax
        rcases List.mem_cons.1 (hall x hx (lt_trans hca hax)) with rfl | hx
        · exact absurd hax (lt_irrefl _)
        · exact hx
    · rw [List.filter_cons_of_neg (by simpa using hca)]
      refine ih c hs hsub' fun x hx hcx => ?_
      rcases List.mem_cons.1 (hall x hx hcx) with rfl | hx
      · exact absurd hcx hca
      · exact hx

/-- Up to a bound, a reading is read without gaps too. -/
theorem contig_filter_le {log : List E} {c : K} {es : List E} (h : K) (he : Contig key log c es) :
    Contig key log c (es.filter fun e => key e ≤ h) := by
  induction es generalizing c with
  | nil => trivial
  | cons e es ih =>
    by_cases hle : key e ≤ h
    · rw [List.filter_cons_of_pos (by simpa using hle)]
      exact ⟨he.1, ih he.2⟩
    · -- what follows is larger still
      have hnil : (e :: es).filter (fun e => key e ≤ h) = [] := by
        rw [List.filter_eq_nil_iff]
        intro x hx
        rcases List.mem_cons.1 hx with rfl | hx
        · simpa using hle
        · have := lt_trans (lt_of_not_ge hle) (contig_lt he.2 x hx)
          simpa using this
      rw [hnil]
      trivial

theorem contig_take {log : List E} {c : K} {es : List E} (n : Nat) (h : Contig key log c es) :
    Contig key log c (es.take n) := by
  rw [← List.take_append_drop n es] at h
  exact (contig_append.1 h).1

end CodingAgent.IdLog
