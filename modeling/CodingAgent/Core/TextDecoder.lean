import CodingAgent.Core.Utf8

/-!
# A fatal streaming decoder of UTF-8 (`TextDecoder`)

The decoder keeps the bytes of a character that is not complete and whether it
has seen the first character of the stream; a byte-order mark that comes first
is dropped. It refuses a byte as soon as no character can have the bytes up to
it.

* `decode_append`: decoding in pieces is decoding at once.
* `feedBytes_encode`: a text is decoded from its bytes; `feedBytes_sound`: what
  is decoded is the text of the bytes.
-/
namespace CodingAgent.Utf8

/-- Bytes that a character starts with and does not end with. -/
def isUnfinished : List UInt8 → Bool
  | [b] => 0xC2 ≤ b && b ≤ 0xF4
  | [b, c] => isThree b c || isFour b c
  | [b, c, d] => isFour b c && isTail d
  | _ => false

/-- One more byte: the bytes that wait and the characters that are complete. -/
def feedByte (waiting : List UInt8) (b : UInt8) : Option (List UInt8 × List Char) :=
  match decodeChar? (waiting ++ [b]) with
  | some c => if c.utf8Size = (waiting ++ [b]).length then some ([], [c]) else none
  | none => if isUnfinished (waiting ++ [b]) then some (waiting ++ [b], []) else none

def feedBytes (waiting : List UInt8) : List UInt8 → Option (List UInt8 × List Char)
  | [] => some (waiting, [])
  | b :: rest => do
    let (waiting, text) ← feedByte waiting b
    let (waiting, more) ← feedBytes waiting rest
    some (waiting, text ++ more)

theorem feedBytes_append (waiting a b : List UInt8) :
    feedBytes waiting (a ++ b) = (feedBytes waiting a).bind fun (waiting, text) =>
      (feedBytes waiting b).map fun (waiting, more) => (waiting, text ++ more) := by
  induction a generalizing waiting with
  | nil =>
    cases h : feedBytes waiting b <;> simp [feedBytes, h]
  | cons byte a ih =>
    rw [List.cons_append, feedBytes, feedBytes]
    cases feedByte waiting byte with
    | none => rfl
    | some first =>
      simp only [Option.bind_eq_bind, Option.bind_some]
      rw [ih]
      cases feedBytes first.1 a with
      | none => rfl
      | some second =>
        simp only [Option.bind_some]
        cases feedBytes second.1 b with
        | none => rfl
        | some third => simp

/-- What is decoded and what waits are the bytes. -/
theorem feedBytes_sound {waiting bytes waiting' : List UInt8} {text : List Char}
    (h : feedBytes waiting bytes = some (waiting', text)) :
    waiting ++ bytes = encode text ++ waiting' := by
  induction bytes generalizing waiting text with
  | nil =>
    cases h
    simp [encode]
  | cons b rest ih =>
    simp only [feedBytes, Option.bind_eq_bind, Option.bind_eq_some_iff, Option.some.injEq,
      Prod.mk.injEq] at h
    obtain ⟨⟨middle, first⟩, hfirst, ⟨last, more⟩, hmore, rfl, rfl⟩ := h
    have hrest := ih hmore
    have hbyte : waiting ++ [b] = encode first ++ middle := by
      rw [feedByte] at hfirst
      split at hfirst
      · next c hchar =>
        split at hfirst
        · next hsize =>
          cases hfirst
          obtain ⟨tail, htail⟩ := decodeChar?_eq_some hchar
          have hlength := congrArg List.length htail
          rw [← hsize, List.length_append, String.length_utf8EncodeChar] at hlength
          have htail_nil : tail = [] := List.length_eq_zero_iff.mp (by omega)
          rw [htail, htail_nil]
          simp [encode]
        · cases hfirst
      · split at hfirst
        · cases hfirst
          simp [encode]
        · cases hfirst
    have hencode : encode (first ++ more) = encode first ++ encode more := List.flatMap_append
    rw [hencode, List.append_assoc, ← hrest, ← List.append_assoc, ← hbyte]
    simp

/-- The bytes of a character but for the last ones wait. -/
theorem isUnfinished_prefix {c : Char} {p s : List UInt8} (h : String.utf8EncodeChar c = p ++ s)
    (hp : p ≠ []) (hs : s ≠ []) : isUnfinished p = true := by
  have hvalid : c.val.toNat < 0xD800 ∨ 0xDFFF < c.val.toNat ∧ c.val.toNat < 0x110000 := c.valid
  have hslen : 0 < s.length := List.length_pos_iff.mpr hs
  have hlen := congrArg List.length h
  rw [List.length_append] at hlen
  unfold String.utf8EncodeChar at h hlen
  simp only at h hlen
  generalize c.val.toNat = v at h hlen hvalid
  rcases p with _ | ⟨x, _ | ⟨y, _ | ⟨z, _ | ⟨w, p⟩⟩⟩⟩
  · exact absurd rfl hp
  all_goals
    split_ifs at h hlen
    all_goals simp only [List.length_cons, List.length_nil] at hlen
    all_goals try omega
    all_goals simp only [List.cons_append, List.cons.injEq] at h
    all_goals simp only [isUnfinished, isThree, isFour, isTail, UInt8.le_iff_toNat_le, h.1.symm,
      Bool.and_eq_true, Bool.or_eq_true, decide_eq_true_eq, beq_iff_eq, ← UInt8.toNat_inj]
  all_goals first
    | simp only [h.2.2.1.symm, h.2.1.symm]
    | simp only [h.2.1.symm]
    | skip
  all_goals
    simp only [UInt8.toNat_ofNat', UInt8.reduceToNat]
    omega

/-- The rest of a character after bytes that wait. -/
theorem feedBytes_char {c : Char} {p s : List UInt8} (h : String.utf8EncodeChar c = p ++ s)
    (hs : s ≠ []) : feedBytes p s = some ([], [c]) := by
  induction s generalizing p with
  | nil => exact absurd rfl hs
  | cons b s ih =>
    have hbytes : String.utf8EncodeChar c = (p ++ [b]) ++ s := by rw [h]; simp
    by_cases hnil : s = []
    · subst hnil
      rw [List.append_nil] at hbytes
      have hchar : decodeChar? (p ++ [b]) = some c := by
        have := decodeChar?_append c []
        rwa [List.append_nil, hbytes] at this
      have hsize : c.utf8Size = (p ++ [b]).length := by
        rw [← hbytes, String.length_utf8EncodeChar]
      simp only [feedBytes, feedByte, hchar, if_pos hsize]
      rfl
    · have hchar : decodeChar? (p ++ [b]) = none := by
        cases hc : decodeChar? (p ++ [b]) with
        | none => rfl
        | some other =>
          obtain ⟨tail, htail⟩ := decodeChar?_eq_some hc
          rw [htail, List.append_assoc] at hbytes
          have hother := decodeChar?_append other (tail ++ s)
          rw [← hbytes] at hother
          have hself := decodeChar?_append c []
          rw [List.append_nil, hother] at hself
          obtain rfl := Option.some.inj hself
          have hlength := congrArg List.length hbytes
          rw [List.length_append, List.length_append] at hlength
          have hpos := List.length_pos_iff.mpr hnil
          omega
      have hunfinished := isUnfinished_prefix hbytes (by simp) hnil
      simp only [feedBytes, feedByte, hchar, hunfinished, if_true, Option.bind_eq_bind,
        Option.bind_some, ih hbytes hnil, List.nil_append]

/-- **A text is decoded from its bytes.** -/
theorem feedBytes_encode (text : List Char) : feedBytes [] (encode text) = some ([], text) := by
  induction text with
  | nil => rfl
  | cons c text ih =>
    have hcons : encode (c :: text) = String.utf8EncodeChar c ++ encode text := List.flatMap_cons
    rw [hcons, feedBytes_append, feedBytes_char (List.nil_append _).symm (encode_char_ne_nil c)]
    simp only [Option.bind_some, ih, Option.map_some, List.singleton_append]

/-! ## The decoder -/

/-- U+FEFF -/
def byteOrderMark : Char := Char.ofNat 0xFEFF

structure TextDecoder where
  waiting : List UInt8
  bomSeen : Bool
  deriving DecidableEq, Repr

namespace TextDecoder

def new : TextDecoder := { waiting := [], bomSeen := false }

/-- Drops a mark that comes first. -/
def dropMark (bomSeen : Bool) : List Char → Bool × List Char
  | [] => (bomSeen, [])
  | c :: text => (true, if !bomSeen && c = byteOrderMark then text else c :: text)

/-- `decoder.decode(chunk, { stream: true })`; `none` if it throws. -/
def decode (decoder : TextDecoder) (chunk : List UInt8) : Option (TextDecoder × List Char) :=
  (feedBytes decoder.waiting chunk).map fun (waiting, text) =>
    let (bomSeen, text) := dropMark decoder.bomSeen text
    ({ waiting, bomSeen }, text)

/-- `decoder.decode()`, the end of the stream. -/
def flush (decoder : TextDecoder) : Option (List Char) :=
  if decoder.waiting = [] then some [] else none

theorem dropMark_append (bomSeen : Bool) (a b : List Char) :
    dropMark bomSeen (a ++ b) =
      ((dropMark (dropMark bomSeen a).1 b).1,
        (dropMark bomSeen a).2 ++ (dropMark (dropMark bomSeen a).1 b).2) := by
  cases a with
  | nil => rfl
  | cons c a =>
    have hrest : dropMark true b = (true, b) := by cases b <;> rfl
    have hcons : ∀ text, dropMark bomSeen (c :: text) =
        (true, if !bomSeen && c = byteOrderMark then text else c :: text) := fun _ => rfl
    rw [List.cons_append, hcons, hcons, hrest]
    split <;> simp

/-- **Decoding in pieces is decoding at once.** -/
theorem decode_append (decoder : TextDecoder) (a b : List UInt8) :
    decoder.decode (a ++ b) = (decoder.decode a).bind fun (decoder, text) =>
      (decoder.decode b).map fun (decoder, more) => (decoder, text ++ more) := by
  rw [decode, feedBytes_append, decode]
  cases feedBytes decoder.waiting a with
  | none => rfl
  | some first =>
    obtain ⟨waiting, text⟩ := first
    simp only [Option.bind_some, Option.map_some, decode]
    cases feedBytes waiting b with
    | none => rfl
    | some second =>
      obtain ⟨waiting', more⟩ := second
      simp only [Option.map_some, dropMark_append]

theorem decode_nil (decoder : TextDecoder) : decoder.decode [] = some (decoder, []) := rfl

/-- A text that does not start with the mark. -/
theorem decode_encode {c : Char} (hc : c ≠ byteOrderMark) (text : List Char) :
    new.decode (encode (c :: text)) = some ({ waiting := [], bomSeen := true }, c :: text) := by
  have hmark : dropMark false (c :: text) = (true, c :: text) := by simp [dropMark, hc]
  simp only [decode, new, feedBytes_encode, Option.map_some, hmark]

end TextDecoder
end CodingAgent.Utf8
