import Mathlib.Data.List.Basic
import Mathlib.Data.Fintype.Basic

/-!
# Percent-encodings of bytes

A byte is written as it is or as a `%` with its two hexadecimal digits, each
in either case; `%` itself has to be escaped. A text of bytes has as many
encodings as there are choices.

* `encode`: the encoding of a choice of spellings.
* `IsHexDigit`, `Malformed`: what makes an escape of an arbitrary text
  malformed.
-/
namespace CodingAgent.Percent

/-- `%` -/
def mark : UInt8 := 37

/-- The digit of a value below 16. -/
def hexDigit (upper : Bool) (v : UInt8) : UInt8 :=
  if v < 10 then v + 48 else if upper then v + 55 else v + 87

/-- `0..=9`, `A..=F` or `a..=f`. -/
def IsHexDigit (c : UInt8) : Prop := (48 ≤ c ∧ c ≤ 57) ∨ (65 ≤ c ∧ c ≤ 70) ∨ (97 ≤ c ∧ c ≤ 102)

instance (c : UInt8) : Decidable (IsHexDigit c) := inferInstanceAs (Decidable (_ ∨ _))

/-- How a byte is written. -/
inductive Spelling where
  | literal
  | escaped (upperHigh upperLow : Bool)
  deriving DecidableEq, Repr

def encodeByte : Spelling → UInt8 → List UInt8
  | .literal, b => [b]
  | .escaped upperHigh upperLow, b => [mark, hexDigit upperHigh (b >>> 4), hexDigit upperLow (b &&& 15)]

/-- The encoding of bytes with a spelling each. -/
def encode (spelled : List (Spelling × UInt8)) : List UInt8 :=
  spelled.flatMap fun s => encodeByte s.1 s.2

/-- The mark is escaped wherever it is one of the bytes. -/
def Escapes (spelled : List (Spelling × UInt8)) : Prop :=
  ∀ s ∈ spelled, s.1 = .literal → s.2 ≠ mark

/-- The bytes that are written. -/
def bytes (spelled : List (Spelling × UInt8)) : List UInt8 := spelled.map (·.2)

/-- Two hexadecimal digits stand first. -/
def IsEscape (text : List UInt8) : Prop :=
  ∃ high low rest, text = high :: low :: rest ∧ IsHexDigit high ∧ IsHexDigit low

/-- Some mark is not followed by two hexadecimal digits. -/
def Malformed (text : List UInt8) : Prop :=
  ∃ before after, text = before ++ mark :: after ∧ ¬IsEscape after

/-! ## Digits -/

theorem not_isHexDigit_mark : ¬IsHexDigit mark := by decide

/-- What holds of the 256 bytes holds of every byte. -/
theorem forall_byte {P : UInt8 → Prop} (h : ∀ n : Fin 256, P (UInt8.ofNat n.val)) (b : UInt8) :
    P b := by
  have hb := h ⟨b.toNat, b.toNat_lt⟩
  rwa [UInt8.ofNat_toNat] at hb

theorem high_lt : ∀ b : UInt8, b >>> 4 < 16 := forall_byte (by decide +kernel)

theorem low_lt : ∀ b : UInt8, b &&& 15 < 16 := forall_byte (by decide +kernel)

theorem join_halves : ∀ b : UInt8, b >>> 4 <<< 4 ||| b &&& 15 = b := forall_byte (by decide +kernel)

theorem halves_join {high low : UInt8} (hhigh : high < 16) (hlow : low < 16) :
    (high <<< 4 ||| low) >>> 4 = high ∧ (high <<< 4 ||| low) &&& 15 = low := by
  have key : ∀ h l : Fin 16,
      (UInt8.ofNat h.val <<< 4 ||| UInt8.ofNat l.val) >>> 4 = UInt8.ofNat h.val ∧
        (UInt8.ofNat h.val <<< 4 ||| UInt8.ofNat l.val) &&& 15 = UInt8.ofNat l.val := by decide +kernel
  have h := key ⟨high.toNat, UInt8.lt_iff_toNat_lt.1 hhigh⟩ ⟨low.toNat, UInt8.lt_iff_toNat_lt.1 hlow⟩
  rwa [UInt8.ofNat_toNat, UInt8.ofNat_toNat] at h

/-! ## Texts -/

@[simp] theorem encode_nil : encode [] = [] := rfl

@[simp] theorem encode_cons (s : Spelling × UInt8) (spelled : List (Spelling × UInt8)) :
    encode (s :: spelled) = encodeByte s.1 s.2 ++ encode spelled := rfl

@[simp] theorem bytes_cons (s : Spelling × UInt8) (spelled : List (Spelling × UInt8)) :
    bytes (s :: spelled) = s.2 :: bytes spelled := rfl

theorem escapes_cons {s : Spelling × UInt8} {spelled : List (Spelling × UInt8)} :
    Escapes (s :: spelled) ↔ (s.1 = .literal → s.2 ≠ mark) ∧ Escapes spelled :=
  List.forall_mem_cons

theorem isEscape_cons_cons {high low : UInt8} {rest : List UInt8} :
    IsEscape (high :: low :: rest) ↔ IsHexDigit high ∧ IsHexDigit low := by
  constructor
  · rintro ⟨h, l, r, heq, hh, hl⟩
    cases heq
    exact ⟨hh, hl⟩
  · exact fun h => ⟨_, _, _, rfl, h⟩

theorem not_malformed_nil : ¬Malformed [] := by
  rintro ⟨before, after, h, -⟩
  exact absurd h.symm (by simp)

/-- A byte other than the mark changes nothing. -/
theorem malformed_cons {b : UInt8} (hb : b ≠ mark) {rest : List UInt8} :
    Malformed (b :: rest) ↔ Malformed rest := by
  constructor
  · rintro ⟨before, after, h, hafter⟩
    cases before with
    | nil => exact absurd (List.cons.inj h).1 hb
    | cons c before => exact ⟨before, after, (List.cons.inj h).2, hafter⟩
  · rintro ⟨before, after, rfl, hafter⟩
    exact ⟨b :: before, after, rfl, hafter⟩

/-- Neither does an escape. -/
theorem malformed_escape {high low : UInt8} (hhigh : IsHexDigit high) (hlow : IsHexDigit low)
    {rest : List UInt8} : Malformed (mark :: high :: low :: rest) ↔ Malformed rest := by
  have hh : high ≠ mark := fun h => not_isHexDigit_mark (h ▸ hhigh)
  have hl : low ≠ mark := fun h => not_isHexDigit_mark (h ▸ hlow)
  refine Iff.trans ?_ ((malformed_cons hh).trans (malformed_cons hl))
  constructor
  · rintro ⟨before, after, h, hafter⟩
    cases before with
    | nil =>
      obtain rfl := (List.cons.inj h).2
      exact absurd (isEscape_cons_cons.2 ⟨hhigh, hlow⟩) hafter
    | cons c before => exact ⟨before, after, (List.cons.inj h).2, hafter⟩
  · rintro ⟨before, after, h, hafter⟩
    exact ⟨mark :: before, after, congrArg (mark :: ·) h, hafter⟩

theorem malformed_of_not_isEscape {rest : List UInt8} (h : ¬IsEscape rest) :
    Malformed (mark :: rest) := ⟨[], rest, rfl, h⟩

end CodingAgent.Percent
