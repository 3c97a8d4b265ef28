import Mathlib.Algebra.Order.Ring.Int
import Mathlib.Data.List.Basic

/-!
# URL-safe base64 without padding

* `Engine`: what a program may rely on when it compares secrets by decoding
  them: decoding undoes encoding, no other text decodes to the same bytes, and
  the encoding is visible ASCII.
* `urlSafeNoPad`: the encoding of RFC 4648 section 5, which is such an engine.
  It refuses padding and non-zero trailing bits.
-/
namespace CodingAgent.Base64

/-- A character of a header value that is text. -/
def isVisible (c : Char) : Bool := (32 ≤ c.toNat && c.toNat < 127) || c.toNat == 9

/-- A strict engine. -/
structure Engine where
  encode : List UInt8 → String
  decode : String → Option (List UInt8)
  decode_encode : ∀ bytes, decode (encode bytes) = some bytes
  strict : ∀ text bytes, decode text = some bytes → text = encode bytes
  visible : ∀ bytes, ∀ c ∈ (encode bytes).toList, isVisible c = true

namespace Engine

variable (engine : Engine)

theorem encode_inj {a b : List UInt8} : engine.encode a = engine.encode b ↔ a = b := by
  constructor
  · intro h
    have ha := engine.decode_encode a
    rw [h, engine.decode_encode b] at ha
    exact (Option.some.inj ha).symm
  · rintro rfl
    rfl

end Engine

/-! ## The alphabet -/

/-- The character of a sextet. -/
def charOf (v : Nat) : Char :=
  if v < 26 then Char.ofNat (v + 65)
  else if v < 52 then Char.ofNat (v + 71)
  else if v < 62 then Char.ofNat (v - 4)
  else if v = 62 then '-'
  else '_'

def valueOf (c : Char) : Option Nat :=
  if 65 ≤ c.toNat ∧ c.toNat ≤ 90 then some (c.toNat - 65)
  else if 97 ≤ c.toNat ∧ c.toNat ≤ 122 then some (c.toNat - 71)
  else if 48 ≤ c.toNat ∧ c.toNat ≤ 57 then some (c.toNat + 4)
  else if c = '-' then some 62
  else if c = '_' then some 63
  else none

theorem valueOf_charOf {v : Nat} (h : v < 64) : valueOf (charOf v) = some v := by
  have hall : ∀ v : Fin 64, valueOf (charOf v) = some v.val := by decide
  exact hall ⟨v, h⟩

theorem charOf_visible {v : Nat} (h : v < 64) : isVisible (charOf v) = true := by
  have hall : ∀ v : Fin 64, isVisible (charOf v) = true := by decide
  exact hall ⟨v, h⟩

theorem charOf_valueOf {c : Char} {v : Nat} (h : valueOf c = some v) : v < 64 ∧ c = charOf v := by
  unfold valueOf at h
  split at h
  · cases h
    refine ⟨by omega, ?_⟩
    rw [charOf, if_pos (by omega), Nat.sub_add_cancel (by omega), Char.ofNat_toNat]
  split at h
  · cases h
    refine ⟨by omega, ?_⟩
    rw [charOf, if_neg (by omega), if_pos (by omega), Nat.sub_add_cancel (by omega),
      Char.ofNat_toNat]
  split at h
  · cases h
    refine ⟨by omega, ?_⟩
    rw [charOf, if_neg (by omega), if_neg (by omega), if_pos (by omega), Nat.add_sub_cancel,
      Char.ofNat_toNat]
  split at h
  · rename_i hc
    cases h
    exact ⟨by omega, hc⟩
  split at h
  · rename_i hc
    cases h
    exact ⟨by omega, hc⟩
  · cases h

/-! ## Groups of three bytes -/

def encodeChars : List UInt8 → List Char
  | a :: b :: c :: rest =>
    charOf (a.toNat / 4) :: charOf (a.toNat % 4 * 16 + b.toNat / 16) ::
      charOf (b.toNat % 16 * 4 + c.toNat / 64) :: charOf (c.toNat % 64) :: encodeChars rest
  | [a, b] =>
    [charOf (a.toNat / 4), charOf (a.toNat % 4 * 16 + b.toNat / 16), charOf (b.toNat % 16 * 4)]
  | [a] => [charOf (a.toNat / 4), charOf (a.toNat % 4 * 16)]
  | [] => []

/-- The bits after the last byte must be zero. -/
def decodeChars : List Char → Option (List UInt8)
  | w :: x :: y :: z :: rest =>
    match valueOf w, valueOf x, valueOf y, valueOf z, decodeChars rest with
    | some w, some x, some y, some z, some bytes =>
      some (UInt8.ofNat (w * 4 + x / 16) :: UInt8.ofNat (x % 16 * 16 + y / 4) ::
        UInt8.ofNat (y % 4 * 64 + z) :: bytes)
    | _, _, _, _, _ => none
  | [w, x, y] =>
    match valueOf w, valueOf x, valueOf y with
    | some w, some x, some y =>
      if y % 4 = 0 then some [UInt8.ofNat (w * 4 + x / 16), UInt8.ofNat (x % 16 * 16 + y / 4)]
      else none
    | _, _, _ => none
  | [w, x] =>
    match valueOf w, valueOf x with
    | some w, some x => if x % 16 = 0 then some [UInt8.ofNat (w * 4 + x / 16)] else none
    | _, _ => none
  | [_] => none
  | [] => some []

theorem toNat_ofNat_lt {n : Nat} (h : n < 256) : (UInt8.ofNat n).toNat = n := by
  rw [UInt8.toNat_ofNat', Nat.mod_eq_of_lt h]

theorem byte_eq {n : Nat} {a : UInt8} (h : n = a.toNat) : UInt8.ofNat n = a := by
  rw [h, UInt8.ofNat_toNat]

theorem decodeChars_encodeChars (bytes : List UInt8) :
    decodeChars (encodeChars bytes) = some bytes := by
  induction bytes using encodeChars.induct with
  | case1 a b c rest ih =>
    have ha := a.toNat_lt
    have hb := b.toNat_lt
    have hc := c.toNat_lt
    simp only [encodeChars, decodeChars]
    rw [valueOf_charOf (by omega), valueOf_charOf (by omega), valueOf_charOf (by omega),
      valueOf_charOf (by omega), ih]
    simp only [Option.some.injEq, List.cons.injEq, and_true]
    exact ⟨byte_eq (by omega), byte_eq (by omega), byte_eq (by omega)⟩
  | case2 a b =>
    have ha := a.toNat_lt
    have hb := b.toNat_lt
    simp only [encodeChars, decodeChars]
    rw [valueOf_charOf (by omega), valueOf_charOf (by omega), valueOf_charOf (by omega)]
    dsimp only
    rw [if_pos (by omega), byte_eq (a := a) (by omega), byte_eq (a := b) (by omega)]
  | case3 a =>
    have ha := a.toNat_lt
    simp only [encodeChars, decodeChars]
    rw [valueOf_charOf (by omega), valueOf_charOf (by omega)]
    dsimp only
    rw [if_pos (by omega), byte_eq (a := a) (by omega)]
  | case4 => rfl

/-- Only the encoding of some bytes decodes to them. -/
theorem decodeChars_strict : ∀ {chars : List Char} {bytes : List UInt8},
    decodeChars chars = some bytes → chars = encodeChars bytes
  | w :: x :: y :: z :: rest, bytes, h => by
    simp only [decodeChars] at h
    split at h
    · rename_i w' x' y' z' bytes' hw hx hy hz hrest
      cases h
      obtain ⟨hlw, rfl⟩ := charOf_valueOf hw
      obtain ⟨hlx, rfl⟩ := charOf_valueOf hx
      obtain ⟨hly, rfl⟩ := charOf_valueOf hy
      obtain ⟨hlz, rfl⟩ := charOf_valueOf hz
      rw [encodeChars, ← decodeChars_strict hrest, toNat_ofNat_lt (by omega), toNat_ofNat_lt (by omega),
        toNat_ofNat_lt (by omega)]
      congr 2
      · omega
      congr 2
      · omega
      congr 2
      · omega
      congr 2
      omega
    · cases h
  | [w, x, y], bytes, h => by
    simp only [decodeChars] at h
    split at h
    · rename_i w' x' y' hw hx hy
      split at h
      · cases h
        obtain ⟨hlw, rfl⟩ := charOf_valueOf hw
        obtain ⟨hlx, rfl⟩ := charOf_valueOf hx
        obtain ⟨hly, rfl⟩ := charOf_valueOf hy
        rw [encodeChars, toNat_ofNat_lt (by omega), toNat_ofNat_lt (by omega)]
        congr 2
        · omega
        congr 2
        · omega
        congr 2
        omega
      · cases h
    · cases h
  | [w, x], bytes, h => by
    simp only [decodeChars] at h
    split at h
    · rename_i w' x' hw hx
      split at h
      · cases h
        obtain ⟨hlw, rfl⟩ := charOf_valueOf hw
        obtain ⟨hlx, rfl⟩ := charOf_valueOf hx
        rw [encodeChars, toNat_ofNat_lt (by omega)]
        congr 2
        · omega
        congr 2
        omega
      · cases h
    · cases h
  | [w], bytes, h => by cases h
  | [], bytes, h => by cases h; rfl

theorem encodeChars_visible (bytes : List UInt8) : ∀ c ∈ encodeChars bytes, isVisible c = true := by
  induction bytes using encodeChars.induct with
  | case1 a b c rest ih =>
    have ha := a.toNat_lt
    have hb := b.toNat_lt
    have hc := c.toNat_lt
    simp only [encodeChars, List.forall_mem_cons]
    exact ⟨charOf_visible (by omega), charOf_visible (by omega), charOf_visible (by omega),
      charOf_visible (by omega), ih⟩
  | case2 a b =>
    have ha := a.toNat_lt
    have hb := b.toNat_lt
    simp only [encodeChars, List.forall_mem_cons]
    exact ⟨charOf_visible (by omega), charOf_visible (by omega), charOf_visible (by omega),
      List.forall_mem_nil _⟩
  | case3 a =>
    have ha := a.toNat_lt
    simp only [encodeChars, List.forall_mem_cons]
    exact ⟨charOf_visible (by omega), charOf_visible (by omega), List.forall_mem_nil _⟩
  | case4 => exact List.forall_mem_nil _

theorem mem_encodeChars {bytes : List UInt8} {c : Char} (h : c ∈ encodeChars bytes) :
    ∃ v, v < 64 ∧ c = charOf v := by
  induction bytes using encodeChars.induct with
  | case1 x y z rest ih =>
    have hx := x.toNat_lt
    have hy := y.toNat_lt
    have hz := z.toNat_lt
    simp only [encodeChars, List.mem_cons] at h
    rcases h with rfl | rfl | rfl | rfl | h
    · exact ⟨_, by omega, rfl⟩
    · exact ⟨_, by omega, rfl⟩
    · exact ⟨_, by omega, rfl⟩
    · exact ⟨_, by omega, rfl⟩
    · exact ih h
  | case2 x y =>
    have hx := x.toNat_lt
    have hy := y.toNat_lt
    simp only [encodeChars, List.mem_cons, List.not_mem_nil, or_false] at h
    rcases h with rfl | rfl | rfl <;> exact ⟨_, by omega, rfl⟩
  | case3 x =>
    have hx := x.toNat_lt
    simp only [encodeChars, List.mem_cons, List.not_mem_nil, or_false] at h
    rcases h with rfl | rfl <;> exact ⟨_, by omega, rfl⟩
  | case4 => cases h

/-- Four characters for three bytes. -/
theorem encodeChars_length (bytes : List UInt8) :
    (encodeChars bytes).length = (4 * bytes.length + 2) / 3 := by
  induction bytes using encodeChars.induct with
  | case1 a b c rest ih =>
    simp only [encodeChars, List.length_cons, ih]
    omega
  | case2 a b => simp [encodeChars]
  | case3 a => simp [encodeChars]
  | case4 => rfl

/-- RFC 4648 section 5, without padding. -/
def urlSafeNoPad : Engine where
  encode bytes := String.ofList (encodeChars bytes)
  decode text := decodeChars text.toList
  decode_encode bytes := by rw [String.toList_ofList, decodeChars_encodeChars]
  strict text bytes h := by rw [← decodeChars_strict h, String.ofList_toList]
  visible bytes := by rw [String.toList_ofList]; exact encodeChars_visible bytes

example : urlSafeNoPad.decode "AQID_w" = some [1, 2, 3, 255] := by decide +kernel

end CodingAgent.Base64
