import Mathlib.Algebra.Order.Ring.Int
import Mathlib.Data.List.Basic

/-!
# UTF-8 texts and the lossy reading of bytes

* `encode`: the bytes of a text. `lossy`: the text of any bytes, where each
  maximal ill-formed piece becomes U+FFFD.
* `lossy_encode`: reading undoes writing, so that two texts never share bytes.
* `isUtf8_iff`: bytes are a text's exactly if the lossy reading of them can be
  written back.
* `lossy_ascii`: an ASCII byte is a character of its own, whatever stands
  around it.
-/
namespace CodingAgent.Utf8

def encode (text : List Char) : List UInt8 := text.flatMap String.utf8EncodeChar

theorem encode_length_le (text : List Char) : (encode text).length ≤ 4 * text.length := by
  induction text with
  | nil => exact Nat.le_refl 0
  | cons c text ih =>
    have hc := c.utf8Size_le_four
    rw [encode, List.flatMap_cons, List.length_append, String.length_utf8EncodeChar,
      List.length_cons, ← encode]
    omega

/-- The bytes are those of a text. -/
def IsUtf8 (bytes : List UInt8) : Prop := ∃ text, encode text = bytes

/-- The character that stands first. -/
def decodeChar? (bytes : List UInt8) : Option Char := bytes.toByteArray.utf8DecodeChar? 0

theorem toByteArray_append (a b : List UInt8) :
    (a ++ b).toByteArray = a.toByteArray ++ b.toByteArray := by
  simp

theorem decodeChar?_append (c : Char) (rest : List UInt8) :
    decodeChar? (String.utf8EncodeChar c ++ rest) = some c := by
  unfold decodeChar?
  rw [toByteArray_append]
  exact ByteArray.utf8DecodeChar?_utf8EncodeChar_append

theorem decodeChar?_eq_some {bytes : List UInt8} {c : Char} (h : decodeChar? bytes = some c) :
    ∃ rest, bytes = String.utf8EncodeChar c ++ rest := by
  obtain ⟨rest, heq⟩ := ByteArray.exists_of_utf8DecodeChar?_eq_some h
  refine ⟨rest.data.toList, ?_⟩
  have hlist := congrArg (fun b : ByteArray => b.data.toList) heq
  simpa using hlist

/-- A continuation byte. -/
def isTail (b : UInt8) : Bool := 0x80 ≤ b && b ≤ 0xBF

/-- The first two bytes of a character of three. -/
def isThree (b c : UInt8) : Bool :=
  (b == 0xE0 && 0xA0 ≤ c && c ≤ 0xBF) || (0xE1 ≤ b && b ≤ 0xEC && isTail c) ||
    (b == 0xED && 0x80 ≤ c && c ≤ 0x9F) || (0xEE ≤ b && b ≤ 0xEF && isTail c)

/-- The first two bytes of a character of four. -/
def isFour (b c : UInt8) : Bool :=
  (b == 0xF0 && 0x90 ≤ c && c ≤ 0xBF) || (0xF1 ≤ b && b ≤ 0xF3 && isTail c) ||
    (b == 0xF4 && 0x80 ≤ c && c ≤ 0x8F)

/-- The length of the ill-formed piece that stands first: as much of a
character as there is, and one byte at least. -/
def invalidLength : List UInt8 → Nat
  | b :: c :: d :: _ => if isThree b c then 2 else if isFour b c then if isTail d then 3 else 2 else 1
  | [b, c] => if isThree b c || isFour b c then 2 else 1
  | _ => 1

/-- The reading of the bytes after the next `skip` ones. -/
def lossyFrom : Nat → List UInt8 → List Char
  | _, [] => []
  | 0, b :: rest =>
    match decodeChar? (b :: rest) with
    | some c => c :: lossyFrom (c.utf8Size - 1) rest
    | none => Char.ofNat 0xFFFD :: lossyFrom (invalidLength (b :: rest) - 1) rest
  | skip + 1, _ :: rest => lossyFrom skip rest

def lossy (bytes : List UInt8) : List Char := lossyFrom 0 bytes

theorem lossyFrom_eq (skip : Nat) (bytes : List UInt8) :
    lossyFrom skip bytes = lossy (bytes.drop skip) := by
  induction bytes generalizing skip with
  | nil => cases skip <;> rfl
  | cons b rest ih =>
    cases skip with
    | zero => rfl
    | succ skip => exact ih skip

theorem encode_char_ne_nil (c : Char) : String.utf8EncodeChar c ≠ [] := by
  intro h
  have hlength := String.length_utf8EncodeChar c
  rw [h] at hlength
  exact absurd hlength.symm (Nat.ne_of_gt c.utf8Size_pos)

theorem lossy_char (c : Char) (rest : List UInt8) :
    lossy (String.utf8EncodeChar c ++ rest) = c :: lossy rest := by
  obtain ⟨b, tail, hbytes⟩ := List.exists_cons_of_ne_nil (encode_char_ne_nil c)
  have hdecode := decodeChar?_append c rest
  have hlength := String.length_utf8EncodeChar c
  rw [hbytes] at hdecode hlength ⊢
  unfold lossy
  simp only [List.cons_append, lossyFrom] at hdecode ⊢
  rw [hdecode]
  dsimp only
  rw [lossyFrom_eq, show c.utf8Size - 1 = tail.length by rw [← hlength]; rfl, List.drop_left]
  rfl

theorem invalidLength_pos (bytes : List UInt8) : 1 ≤ invalidLength bytes := by
  unfold invalidLength
  split
  · split
    · omega
    · split
      · split <;> omega
      · omega
  · split <;> omega
  · exact Nat.le_refl 1

theorem lossy_invalid {b : UInt8} {rest : List UInt8} (h : decodeChar? (b :: rest) = none) :
    lossy (b :: rest) = Char.ofNat 0xFFFD :: lossy ((b :: rest).drop (invalidLength (b :: rest))) := by
  unfold lossy
  rw [lossyFrom, h]
  dsimp only
  rw [lossyFrom_eq]
  obtain ⟨n, hn⟩ := Nat.exists_eq_add_of_le' (invalidLength_pos (b :: rest))
  rw [hn, Nat.add_sub_cancel, List.drop_succ_cons]
  rfl

/-- The reading goes character by character, or over an ill-formed piece. -/
theorem lossy_induct {P : List UInt8 → Prop} (nil : P [])
    (char : ∀ c rest, P rest → P (String.utf8EncodeChar c ++ rest))
    (invalid : ∀ bytes n, lossy bytes = Char.ofNat 0xFFFD :: lossy (bytes.drop n) →
      P (bytes.drop n) → P bytes) (bytes : List UInt8) : P bytes := by
  induction hn : bytes.length using Nat.strongRecOn generalizing bytes with
  | ind n ih =>
    cases bytes with
    | nil => exact nil
    | cons b rest =>
      cases hdecode : decodeChar? (b :: rest) with
      | some c =>
        obtain ⟨tail, htail⟩ := decodeChar?_eq_some hdecode
        have hlength := congrArg List.length htail
        have hpos := c.utf8Size_pos
        rw [List.length_append, String.length_utf8EncodeChar] at hlength
        rw [htail]
        exact char c tail (ih tail.length (by omega) tail rfl)
      | none =>
        refine invalid _ _ (lossy_invalid hdecode) (ih _ ?_ _ rfl)
        have hpos := invalidLength_pos (b :: rest)
        rw [List.length_drop]
        simp only [List.length_cons] at hn ⊢
        omega

/-- A reading without U+FFFD is the text. -/
theorem encode_lossy (bytes : List UInt8) :
    Char.ofNat 0xFFFD ∉ lossy bytes → encode (lossy bytes) = bytes := by
  refine lossy_induct (P := fun bytes => Char.ofNat 0xFFFD ∉ lossy bytes →
    encode (lossy bytes) = bytes) (fun _ => rfl) ?_ ?_ bytes
  · intro c rest ih hnot
    rw [lossy_char] at hnot ⊢
    show String.utf8EncodeChar c ++ encode (lossy rest) = _
    rw [ih fun hmem => hnot (List.mem_cons_of_mem _ hmem)]
  · intro bytes n hstep _ hnot
    rw [hstep] at hnot
    exact absurd List.mem_cons_self hnot

/-- The bytes of a character that was read are there. -/
theorem mem_lossy {c : Char} (bytes : List UInt8) (h : c ∈ lossy bytes) :
    c = Char.ofNat 0xFFFD ∨ ∀ b ∈ String.utf8EncodeChar c, b ∈ bytes := by
  revert h
  refine lossy_induct (P := fun bytes => c ∈ lossy bytes → c = Char.ofNat 0xFFFD ∨
    ∀ b ∈ String.utf8EncodeChar c, b ∈ bytes) (fun h => (by cases h)) ?_ ?_ bytes
  · intro d rest ih h
    rw [lossy_char] at h
    rcases List.mem_cons.1 h with rfl | h
    · exact .inr fun b hb => List.mem_append_left _ hb
    · exact (ih h).imp id fun hall b hb => List.mem_append_right _ (hall b hb)
  · intro bytes n hstep ih h
    rw [hstep] at h
    rcases List.mem_cons.1 h with rfl | h
    · exact .inl rfl
    · exact (ih h).imp id fun hall b hb => List.mem_of_mem_drop (hall b hb)

/-- Reading undoes writing. -/
theorem lossy_encode (text : List Char) : lossy (encode text) = text := by
  induction text with
  | nil => rfl
  | cons c text ih =>
    show lossy (String.utf8EncodeChar c ++ encode text) = c :: text
    rw [lossy_char, ih]

/-- The text up to the first ill-formed piece, after the next `skip` bytes. -/
def prefixFrom : Nat → List UInt8 → List Char
  | _, [] => []
  | 0, b :: rest =>
    match decodeChar? (b :: rest) with
    | some c => c :: prefixFrom (c.utf8Size - 1) rest
    | none => []
  | skip + 1, _ :: rest => prefixFrom skip rest

def validPrefix (bytes : List UInt8) : List Char := prefixFrom 0 bytes

theorem prefixFrom_eq (skip : Nat) (bytes : List UInt8) :
    prefixFrom skip bytes = validPrefix (bytes.drop skip) := by
  induction bytes generalizing skip with
  | nil => cases skip <;> rfl
  | cons b rest ih =>
    cases skip with
    | zero => rfl
    | succ skip => exact ih skip

theorem validPrefix_char (c : Char) (rest : List UInt8) :
    validPrefix (String.utf8EncodeChar c ++ rest) = c :: validPrefix rest := by
  obtain ⟨b, tail, hbytes⟩ := List.exists_cons_of_ne_nil (encode_char_ne_nil c)
  have hdecode := decodeChar?_append c rest
  have hlength := String.length_utf8EncodeChar c
  rw [hbytes] at hdecode hlength ⊢
  unfold validPrefix
  simp only [List.cons_append, prefixFrom] at hdecode ⊢
  rw [hdecode]
  dsimp only
  rw [prefixFrom_eq, show c.utf8Size - 1 = tail.length by rw [← hlength]; rfl, List.drop_left]
  rfl

/-- All of a text. -/
theorem validPrefix_encode (text : List Char) : validPrefix (encode text) = text := by
  induction text with
  | nil => rfl
  | cons c text ih =>
    show validPrefix (String.utf8EncodeChar c ++ encode text) = c :: text
    rw [validPrefix_char, ih]

theorem encode_inj {a b : List Char} : encode a = encode b ↔ a = b := by
  constructor
  · intro h
    rw [← lossy_encode a, h, lossy_encode]
  · rintro rfl
    rfl

theorem isUtf8_iff {bytes : List UInt8} : IsUtf8 bytes ↔ encode (lossy bytes) = bytes := by
  constructor
  · rintro ⟨text, rfl⟩
    rw [lossy_encode]
  · exact fun h => ⟨_, h⟩

instance (bytes : List UInt8) : Decidable (IsUtf8 bytes) := decidable_of_iff _ isUtf8_iff.symm

/-! ## ASCII -/

/-- A byte below 128 is the whole of the character it is in. -/
theorem encode_char_ascii {c : Char} {b : UInt8} (h : b ∈ String.utf8EncodeChar c)
    (hb : b.toNat < 128) : String.utf8EncodeChar c = [b] ∧ c = Char.ofNat b.toNat := by
  have hc : c.val.toNat < 2 ^ 21 := by
    have := c.utf8Size_le_four
    have hvalid := c.valid
    unfold UInt32.isValidChar Nat.isValidChar at hvalid
    omega
  unfold String.utf8EncodeChar at h ⊢
  dsimp only at h ⊢
  split at h
  · rename_i hsmall
    obtain rfl := List.mem_singleton.1 h
    rw [if_pos hsmall]
    refine ⟨rfl, ?_⟩
    rw [UInt8.toNat_ofNat', Nat.mod_eq_of_lt (by omega)]
    exact (Char.ofNat_toNat c).symm
  · exfalso
    split at h
    · simp only [List.mem_cons, List.not_mem_nil, or_false] at h
      rcases h with rfl | rfl <;> rw [UInt8.toNat_ofNat'] at hb <;> omega
    split at h
    · simp only [List.mem_cons, List.not_mem_nil, or_false] at h
      rcases h with rfl | rfl | rfl <;> rw [UInt8.toNat_ofNat'] at hb <;> omega
    · simp only [List.mem_cons, List.not_mem_nil, or_false] at h
      rcases h with rfl | rfl | rfl | rfl <;> rw [UInt8.toNat_ofNat'] at hb <;> omega

theorem encode_char_of_ascii {b : UInt8} (hb : b.toNat < 128) :
    String.utf8EncodeChar (Char.ofNat b.toNat) = [b] := by
  have hall : ∀ n : Fin 128, String.utf8EncodeChar (Char.ofNat n.val) = [UInt8.ofNat n.val] := by
    decide
  rw [hall ⟨b.toNat, hb⟩, UInt8.ofNat_toNat]

theorem isThree_ascii {b x : UInt8} (hx : x.toNat < 128) : isThree b x = false := by
  unfold isThree isTail
  simp only [Bool.or_eq_false_iff, Bool.and_eq_false_iff, decide_eq_false_iff_not,
    UInt8.le_iff_toNat_le]
  have h1 : (0xA0 : UInt8).toNat = 160 := rfl
  have h2 : (0x80 : UInt8).toNat = 128 := rfl
  omega

theorem isFour_ascii {b x : UInt8} (hx : x.toNat < 128) : isFour b x = false := by
  unfold isFour isTail
  simp only [Bool.or_eq_false_iff, Bool.and_eq_false_iff, decide_eq_false_iff_not,
    UInt8.le_iff_toNat_le]
  have h1 : (0x90 : UInt8).toNat = 144 := rfl
  have h2 : (0x80 : UInt8).toNat = 128 := rfl
  omega

theorem isTail_ascii {x : UInt8} (hx : x.toNat < 128) : isTail x = false := by
  unfold isTail
  simp only [Bool.and_eq_false_iff, decide_eq_false_iff_not, UInt8.le_iff_toNat_le]
  have h2 : (0x80 : UInt8).toNat = 128 := rfl
  omega

/-- An ASCII byte ends an ill-formed piece as the end of the bytes does. -/
theorem invalidLength_ascii {a b : List UInt8} {x : UInt8} (hx : x.toNat < 128) (ha : a ≠ []) :
    invalidLength (a ++ x :: b) = invalidLength a ∧ 1 ≤ invalidLength a ∧
      invalidLength a ≤ a.length := by
  match a with
  | [] => exact absurd rfl ha
  | [p] =>
    have h3 := isThree_ascii (b := p) hx
    have h4 := isFour_ascii (b := p) hx
    cases b <;> simp [invalidLength, h3, h4]
  | [p, q] =>
    have h3 := isTail_ascii hx
    simp only [List.cons_append, List.nil_append, invalidLength, h3, Bool.false_eq_true, if_false,
      List.length_cons, List.length_nil, Bool.or_eq_true]
    by_cases hthree : isThree p q = true <;> by_cases hfour : isFour p q = true <;>
      simp [hthree, hfour]
  | p :: q :: r :: rest =>
    have hrange : ∀ more, 1 ≤ invalidLength (p :: q :: r :: more) ∧
        invalidLength (p :: q :: r :: more) ≤ 3 := by
      intro more
      simp only [invalidLength]
      split
      · omega
      · split
        · split <;> omega
        · omega
    refine ⟨?_, (hrange rest).1, Nat.le_trans (hrange rest).2 ?_⟩
    · rfl
    · simp only [List.length_cons]
      omega

/-- An ASCII byte is a character of its own. -/
theorem lossy_ascii {x : UInt8} (hx : x.toNat < 128) (a b : List UInt8) :
    lossy (a ++ x :: b) = lossy a ++ Char.ofNat x.toNat :: lossy b := by
  induction hn : a.length using Nat.strongRecOn generalizing a with
  | ind n ih =>
    cases a with
    | nil =>
      have hchar := lossy_char (Char.ofNat x.toNat) b
      rw [encode_char_of_ascii hx] at hchar
      exact hchar
    | cons y rest =>
      cases hdecode : decodeChar? (y :: rest) with
      | some c =>
        obtain ⟨tail, htail⟩ := decodeChar?_eq_some hdecode
        have hshort : tail.length < n := by
          have hlength := congrArg List.length htail
          have hpos := c.utf8Size_pos
          rw [List.length_append, String.length_utf8EncodeChar] at hlength
          omega
        rw [htail, List.append_assoc, lossy_char, lossy_char, ih tail.length hshort tail rfl]
        rfl
      | none =>
        have hnone : decodeChar? ((y :: rest) ++ x :: b) = none := by
          cases hsome : decodeChar? ((y :: rest) ++ x :: b) with
          | none => rfl
          | some c =>
            exfalso
            obtain ⟨tail, htail⟩ := decodeChar?_eq_some hsome
            rcases List.append_eq_append_iff.1 htail with ⟨more, hmore, hrest⟩ | ⟨more, hmore, -⟩
            · -- the character would reach over the ASCII byte
              cases more with
              | nil =>
                rw [List.append_nil] at hmore
                have hwhole := decodeChar?_append c []
                rw [hmore, List.append_nil, hdecode] at hwhole
                cases hwhole
              | cons z more =>
                obtain ⟨rfl, -⟩ := List.cons.inj hrest
                have hmem : x ∈ String.utf8EncodeChar c := by
                  rw [hmore]
                  exact List.mem_append_right _ List.mem_cons_self
                have hone := (encode_char_ascii hmem hx).1
                rw [hone] at hmore
                have hlength := congrArg List.length hmore
                simp only [List.length_append, List.length_cons, List.length_nil] at hlength
                omega
            · rw [hmore, decodeChar?_append] at hdecode
              cases hdecode
        obtain ⟨hsame, hpos, hle⟩ := invalidLength_ascii (b := b) hx (List.cons_ne_nil y rest)
        have hstep : lossy ((y :: rest) ++ x :: b) = Char.ofNat 0xFFFD ::
            lossy (((y :: rest) ++ x :: b).drop (invalidLength ((y :: rest) ++ x :: b))) :=
          lossy_invalid hnone
        rw [hstep, hsame, lossy_invalid hdecode, List.drop_append_of_le_length hle, ih _ ?_ _ rfl]
        · rfl
        · rw [List.length_drop]
          simp only [List.length_cons] at hn ⊢
          omega

end CodingAgent.Utf8
