import Mathlib.Data.List.DropRight

/-!
# UTF-16 texts and trimming

The strings of a language whose characters are code units: `encode` are the
units of a text, `codePoints` what an iteration over units yields, where a lone
surrogate is a code point of its own, and `trimWhile` cuts both ends of any
list.

* `codePoints_encode`, `decode_encode`: the code points of a well-formed string
  are its characters.
* `trimWhile_encode`: trimming units is trimming characters, if the units of a
  character are trimmed exactly when it is.
* `trimWhile_eq_self_iff`: what trimming leaves alone.
-/
namespace CodingAgent.Utf16

/-- The code units of a character. -/
def encodeChar (c : Char) : List UInt16 :=
  if c.toNat < 0x10000 then [UInt16.ofNat c.toNat]
  else [UInt16.ofNat (0xD800 + (c.toNat - 0x10000) / 0x400),
    UInt16.ofNat (0xDC00 + (c.toNat - 0x10000) % 0x400)]

def encode (text : List Char) : List UInt16 := text.flatMap encodeChar

def isLead (u : UInt16) : Bool := 0xD800 ≤ u.toNat && u.toNat ≤ 0xDBFF

def isTrail (u : UInt16) : Bool := 0xDC00 ≤ u.toNat && u.toNat ≤ 0xDFFF

/-- The code points of a string, lone surrogates among them. -/
def codePoints : List UInt16 → List Nat
  | [] => []
  | [u] => [u.toNat]
  | u :: v :: rest =>
    if isLead u && isTrail v then
      (0x10000 + (u.toNat - 0xD800) * 0x400 + (v.toNat - 0xDC00)) :: codePoints rest
    else u.toNat :: codePoints (v :: rest)

/-- The text of a well-formed string. -/
def decode (units : List UInt16) : Option (List Char) :=
  (codePoints units).mapM fun n => if n.isValidChar then some (Char.ofNat n) else none

/-- The text that is shown for a string: what is no character is replaced. -/
def lossy (units : List UInt16) : List Char :=
  (codePoints units).map fun n => if n.isValidChar then Char.ofNat n else '\uFFFD'

theorem toNat_lt (c : Char) : c.toNat < 0x110000 := by
  rcases c.valid with h | ⟨-, h⟩
  · exact Nat.lt_trans h (by decide)
  · exact h

/-- A character is no surrogate. -/
theorem not_surrogate (c : Char) : c.toNat < 0xD800 ∨ 0xDFFF < c.toNat := by
  rcases c.valid with h | ⟨h, -⟩
  · exact Or.inl h
  · exact Or.inr h

/-- A character is one unit that is no surrogate or a pair of them. -/
theorem encodeChar_cases (c : Char) :
    (∃ u : UInt16, encodeChar c = [u] ∧ u.toNat = c.toNat ∧ isLead u = false) ∨
    (∃ u v : UInt16, encodeChar c = [u, v] ∧ isLead u = true ∧ isTrail v = true ∧
      0x10000 + (u.toNat - 0xD800) * 0x400 + (v.toNat - 0xDC00) = c.toNat ∧
      0x10000 ≤ c.toNat) := by
  have hsurrogate := not_surrogate c
  have hlt := toNat_lt c
  by_cases h : c.toNat < 0x10000
  · have hunit : (UInt16.ofNat c.toNat).toNat = c.toNat := by
      rw [UInt16.toNat_ofNat']
      omega
    refine Or.inl ⟨_, if_pos h, hunit, ?_⟩
    simp only [isLead, hunit, Bool.and_eq_false_iff, decide_eq_false_iff_not]
    omega
  · have hlead : (UInt16.ofNat (0xD800 + (c.toNat - 0x10000) / 0x400)).toNat =
        0xD800 + (c.toNat - 0x10000) / 0x400 := by
      rw [UInt16.toNat_ofNat']
      omega
    have htrail : (UInt16.ofNat (0xDC00 + (c.toNat - 0x10000) % 0x400)).toNat =
        0xDC00 + (c.toNat - 0x10000) % 0x400 := by
      rw [UInt16.toNat_ofNat']
      omega
    refine Or.inr ⟨_, _, if_neg h, ?_, ?_, ?_, by omega⟩
    · simp only [isLead, hlead, Bool.and_eq_true, decide_eq_true_eq]
      omega
    · simp only [isTrail, htrail, Bool.and_eq_true, decide_eq_true_eq]
      omega
    · rw [hlead, htrail]
      omega

theorem encode_cons (c : Char) (text : List Char) :
    encode (c :: text) = encodeChar c ++ encode text := List.flatMap_cons

theorem encode_append (a b : List Char) : encode (a ++ b) = encode a ++ encode b :=
  List.flatMap_append

/-- The code points of a well-formed string are its characters. -/
theorem codePoints_encode (text : List Char) : codePoints (encode text) = text.map Char.toNat := by
  induction text with
  | nil => rfl
  | cons c text ih =>
    rw [encode_cons, List.map_cons, ← ih]
    rcases encodeChar_cases c with ⟨u, hu, hval, hlead⟩ | ⟨u, v, huv, hlead, htrail, hval, -⟩
    · rw [hu, ← hval, List.singleton_append]
      cases encode text with
      | nil => rfl
      | cons v rest => rw [codePoints, hlead, Bool.false_and, if_neg Bool.false_ne_true]
    · rw [huv, List.cons_append, List.singleton_append, codePoints, hlead, htrail, Bool.and_self,
        if_pos rfl, hval]

theorem decode_encode (text : List Char) : decode (encode text) = some text := by
  rw [decode, codePoints_encode]
  induction text with
  | nil => rfl
  | cons c text ih =>
    have hchar : (if c.toNat.isValidChar then some (Char.ofNat c.toNat) else none) = some c := by
      rw [if_pos (show c.toNat.isValidChar from c.valid), Char.ofNat_toNat]
    rw [List.map_cons, List.mapM_cons, hchar, ih]
    rfl

/-! ## Trimming -/

section
variable {α : Type} (p : α → Bool)

/-- Without the longest ends of which every member satisfies `p`. -/
def trimWhile (l : List α) : List α := (l.dropWhile p).rdropWhile p

/-- An end of a list is kept. -/
def Kept (a : Option α) : Prop := ∀ x ∈ a, p x = false

theorem trimWhile_eq_self_iff (l : List α) :
    trimWhile p l = l ↔ Kept p l.head? ∧ Kept p l.getLast? := by
  have hlen : (trimWhile p l).length ≤ (l.dropWhile p).length :=
    (List.rdropWhile_prefix p (l.dropWhile p)).length_le
  have hdrop : l.dropWhile p = l ↔ Kept p l.head? := by
    rw [List.dropWhile_eq_self_iff]
    cases l with
    | nil => simp [Kept]
    | cons a l => simp [Kept]
  have hlast : l.rdropWhile p = l ↔ Kept p l.getLast? := by
    rw [List.rdropWhile_eq_self_iff]
    cases l using List.reverseRecOn with
    | nil => simp [Kept]
    | append_singleton l a => simp [Kept]
  rw [← hdrop, ← hlast]
  constructor
  · intro h
    have hself : l.dropWhile p = l := by
      rw [h] at hlen
      exact (List.dropWhile_suffix p).eq_of_length_le hlen
    rw [trimWhile, hself] at h
    exact ⟨hself, h⟩
  · rintro ⟨hself, h⟩
    rw [trimWhile, hself, h]

/-- The ends of a trimmed list are kept. -/
theorem trimWhile_kept (l : List α) :
    Kept p (trimWhile p l).head? ∧ Kept p (trimWhile p l).getLast? := by
  rw [← trimWhile_eq_self_iff]
  have hhead : (trimWhile p l).dropWhile p = trimWhile p l := by
    rw [List.dropWhile_eq_self_iff]
    intro hl
    have hpre : trimWhile p l <+: l.dropWhile p := List.rdropWhile_prefix p _
    have hpos : 0 < (l.dropWhile p).length := Nat.lt_of_lt_of_le hl hpre.length_le
    have hget : (trimWhile p l)[0] = (l.dropWhile p)[0] := hpre.getElem hl
    rw [hget]
    exact (List.dropWhile_eq_self_iff.mp (List.dropWhile_idempotent p l)) hpos
  calc trimWhile p (trimWhile p l) = (trimWhile p l).rdropWhile p := by rw [trimWhile, hhead]
    _ = trimWhile p l := List.rdropWhile_idempotent p _

theorem trimWhile_length_le (l : List α) : (trimWhile p l).length ≤ l.length :=
  Nat.le_trans (List.rdropWhile_prefix p _).length_le (List.dropWhile_suffix p).length_le

end

section
variable {p : UInt16 → Bool} {q : Char → Bool}

theorem dropWhile_encode (h : ∀ c, ∀ u ∈ encodeChar c, p u = q c) (text : List Char) :
    (encode text).dropWhile p = encode (text.dropWhile q) := by
  induction text with
  | nil => rfl
  | cons c text ih =>
    cases hc : q c with
    | true =>
      rw [encode_cons, List.dropWhile_append_of_pos (fun u hu => by rw [h c u hu, hc]), ih,
        List.dropWhile_cons_of_pos hc]
    | false =>
      rw [List.dropWhile_cons_of_neg (by rw [hc]; decide), encode_cons]
      cases hunits : encodeChar c with
      | nil =>
        rcases encodeChar_cases c with ⟨u, hu, -⟩ | ⟨u, v, huv, -⟩
        · rw [hunits] at hu
          cases hu
        · rw [hunits] at huv
          cases huv
      | cons u units =>
        have hu : p u = false := by rw [h c u (by rw [hunits]; exact List.mem_cons_self), hc]
        rw [List.cons_append, List.dropWhile_cons_of_neg (by rw [hu]; decide)]

theorem rdropWhile_encode (h : ∀ c, ∀ u ∈ encodeChar c, p u = q c) (text : List Char) :
    (encode text).rdropWhile p = encode (text.rdropWhile q) := by
  induction text using List.reverseRecOn with
  | nil => rfl
  | append_singleton text c ih =>
    rw [encode_append, List.rdropWhile_concat]
    rcases encodeChar_cases c with ⟨u, hu, -⟩ | ⟨u, v, huv, -⟩
    · have hmem := h c u (by rw [hu]; exact List.mem_singleton_self u)
      have hlast : encode [c] = [u] := by rw [encode_cons, hu]; rfl
      rw [hlast, List.rdropWhile_concat, hmem]
      split
      · exact ih
      · rw [encode_append, hlast]
    · have hu := h c u (by rw [huv]; exact List.mem_cons_self)
      have hv := h c v (by rw [huv]; exact List.mem_cons_of_mem u (List.mem_singleton_self v))
      have hlast : encode [c] = [u] ++ [v] := by rw [encode_cons, huv]; rfl
      rw [hlast, ← List.append_assoc, List.rdropWhile_concat, List.rdropWhile_concat, hu, hv]
      split
      · exact ih
      · rw [encode_append, hlast, ← List.append_assoc]

/-- Trimming units is trimming characters. -/
theorem trimWhile_encode (h : ∀ c, ∀ u ∈ encodeChar c, p u = q c) (text : List Char) :
    trimWhile p (encode text) = encode (trimWhile q text) := by
  rw [trimWhile, trimWhile, dropWhile_encode h, rdropWhile_encode h]

end
end CodingAgent.Utf16
