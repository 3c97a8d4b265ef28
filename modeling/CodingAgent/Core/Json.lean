import CodingAgent.Core.Digits
import CodingAgent.Core.Utf16

/-!
# JSON texts

Documents as trees (`Json`), the compact text of a document (`print`), and a
recursive-descent reader of the grammar of RFC 8259 (`parse`). The members of
an object are kept in the order of the text, repeated names included. A
number without fraction and exponent is an integer; the others, and `-0`,
keep their literal, which nothing below interprets.

A string may spell a surrogate without its other half, by its escape. That is
no text: `parse` refuses it. Where strings are code units it is a string all
the same (`illFormed`), and `parseWide` reads it.

* `readValue_print`: the reader undoes the printer in front of any text that
  does not continue a number.
* `parse_print`, `parseWide_print`: so it does on a whole text.
* `readWide`: what is read strictly is read so.
* `oneLine_print`: the text has no line ending.
-/
namespace CodingAgent

inductive Json where
  | null
  | bool (value : Bool)
  | int (value : Int)
  | decimal (literal : List Char)
  | string (value : String)
  | illFormed (units : List UInt16)
  | array (items : List Json)
  | object (members : List (String × Json))
  deriving Repr

namespace Json
open Digits

/-! ## Printing -/

/-- A character inside a string. -/
def printChar (c : Char) : List Char :=
  if c = '"' then ['\\', '"']
  else if c = '\\' then ['\\', '\\']
  else if c = '\x08' then ['\\', 'b']
  else if c = '\t' then ['\\', 't']
  else if c = '\n' then ['\\', 'n']
  else if c = '\x0c' then ['\\', 'f']
  else if c = '\r' then ['\\', 'r']
  else if c < ' ' then '\\' :: 'u' :: numeral 16 4 c.toNat
  else [c]

def printString (s : String) : List Char := '"' :: (s.toList.flatMap printChar ++ ['"'])

def printInt (n : Int) : List Char :=
  if n < 0 then '-' :: Nat.toDigits 10 n.natAbs else Nat.toDigits 10 n.natAbs

/-- A string of code units, all of them escaped. -/
def printUnits (units : List UInt16) : List Char :=
  '"' :: (units.flatMap (fun u => '\\' :: 'u' :: numeral 16 4 u.toNat) ++ ['"'])

mutual
/-- The compact text. -/
def print : Json → List Char
  | .null => ['n', 'u', 'l', 'l']
  | .bool true => ['t', 'r', 'u', 'e']
  | .bool false => ['f', 'a', 'l', 's', 'e']
  | .int n => printInt n
  | .decimal literal => literal
  | .string s => printString s
  | .illFormed units => printUnits units
  | .array [] => ['[', ']']
  | .array (v :: vs) => '[' :: (print v ++ printItems vs)
  | .object [] => ['{', '}']
  | .object ((k, v) :: ms) => '{' :: (printString k ++ ':' :: (print v ++ printMembers ms))

/-- The items after the first one, and the bracket. -/
def printItems : List Json → List Char
  | [] => [']']
  | v :: vs => ',' :: (print v ++ printItems vs)

/-- The members after the first one, and the brace. -/
def printMembers : List (String × Json) → List Char
  | [] => ['}']
  | (k, v) :: ms => ',' :: (printString k ++ ':' :: (print v ++ printMembers ms))
end

/-! ## Reading -/

def isBlank (c : Char) : Bool := c = ' ' || c = '\n' || c = '\r' || c = '\t'

def skipBlank (cs : List Char) : List Char := cs.dropWhile isBlank

def simpleEscape (c : Char) : Option Char :=
  if c = '"' then some '"'
  else if c = '\\' then some '\\'
  else if c = '/' then some '/'
  else if c = 'b' then some '\x08'
  else if c = 'f' then some '\x0c'
  else if c = 'n' then some '\n'
  else if c = 'r' then some '\r'
  else if c = 't' then some '\t'
  else none

/-- The second half of a surrogate pair. -/
def readTrail (high : Nat) : List Char → Option (Char × List Char)
  | '\\' :: 'u' :: rest =>
    (readFixed 16 4 rest).bind fun (low, rest) =>
      if 0xDC00 ≤ low ∧ low < 0xE000 then
        some (Char.ofNat (0x10000 + (high - 0xD800) * 0x400 + (low - 0xDC00)), rest)
      else none
  | _ => none

/-- The escape after `\u`. A surrogate must be the first of a pair. -/
def readUnicode (cs : List Char) : Option (Char × List Char) :=
  (readFixed 16 4 cs).bind fun (n, rest) =>
    if 0xD800 ≤ n ∧ n < 0xDC00 then readTrail n rest
    else if 0xDC00 ≤ n ∧ n < 0xE000 then none
    else some (Char.ofNat n, rest)

/-- The escape after a backslash. -/
def readEscape : List Char → Option (Char × List Char)
  | [] => none
  | c :: rest =>
    if c = 'u' then readUnicode rest else (simpleEscape c).map fun c => (c, rest)

/-- One character of a string, its closing quote apart. -/
def readChar : List Char → Option (Char × List Char)
  | [] => none
  | c :: rest =>
    if c = '\\' then readEscape rest
    else if c < ' ' then none
    else some (c, rest)

/-- The rest of a string after its opening quote. -/
def readChars : Nat → List Char → Option (List Char × List Char)
  | 0, _ => none
  | fuel + 1, cs =>
    if cs.head? = some '"' then some ([], cs.tail)
    else
      (readChar cs).bind fun (c, rest) =>
        (readChars fuel rest).map fun (s, rest) => (c :: s, rest)

/-- A string after its opening quote. -/
def readString (cs : List Char) : Option (String × List Char) :=
  (readChars (cs.length + 1) cs).map fun (s, rest) => (String.ofList s, rest)

/-- A surrogate that is escaped alone. -/
def readLone : List Char → Option (List UInt16 × List Char)
  | '\\' :: 'u' :: rest => (readFixed 16 4 rest).map fun (n, rest) => ([UInt16.ofNat n], rest)
  | _ => none

/-- The code units of one character, or a lone one. -/
def readUnit (cs : List Char) : Option (List UInt16 × List Char) :=
  match readChar cs with
  | some (c, rest) => some (Utf16.encodeChar c, rest)
  | none => readLone cs

/-- The code units of the rest of a string. -/
def readUnits : Nat → List Char → Option (List UInt16 × List Char)
  | 0, _ => none
  | fuel + 1, cs =>
    if cs.head? = some '"' then some ([], cs.tail)
    else
      (readUnit cs).bind fun (u, rest) =>
        (readUnits fuel rest).map fun (us, rest) => (u ++ us, rest)

/-- A string of code units, as a text where it is one. -/
def ofUnits (units : List UInt16) : Json :=
  match Utf16.decode units with
  | some s => .string (String.ofList s)
  | none => .illFormed units

/-- A string after its opening quote; a wide one may be no text. -/
def readText (wide : Bool) (cs : List Char) : Option (Json × List Char) :=
  if wide then (readUnits (cs.length + 1) cs).map fun (us, rest) => (ofUnits us, rest)
  else (readString cs).map fun (s, rest) => (.string s, rest)

/-- Digits, at least one. -/
def readDigits (cs : List Char) : Option (List Char × List Char) :=
  if (cs.takeWhile Char.isDigit).isEmpty then none
  else some (cs.takeWhile Char.isDigit, cs.dropWhile Char.isDigit)

/-- The digits before the fraction: no zero in front of others. -/
def readWhole (cs : List Char) : Option (List Char × List Char) :=
  (readDigits cs).bind fun (digits, rest) =>
    if digits.head? = some '0' ∧ 1 < digits.length then none else some (digits, rest)

/-- A fraction, when there is a point. -/
def readFraction (cs : List Char) : Option (List Char × List Char) :=
  if cs.head? = some '.' then (readDigits cs.tail).map fun (digits, rest) => ('.' :: digits, rest)
  else some ([], cs)

def isExponentMark (c : Char) : Bool := c = 'e' || c = 'E'

def isSign (c : Char) : Bool := c = '+' || c = '-'

/-- An exponent, when there is its letter. -/
def readExponent (cs : List Char) : Option (List Char × List Char) :=
  match cs with
  | [] => some ([], [])
  | e :: rest =>
    if isExponentMark e then
      let sign := rest.takeWhile isSign
      if 1 < sign.length then none
      else (readDigits (rest.dropWhile isSign)).map fun (digits, rest) =>
        (e :: (sign ++ digits), rest)
    else some ([], cs)

/-- A number without its sign. -/
def readUnsigned (negative : Bool) (cs : List Char) : Option (Json × List Char) :=
  (readWhole cs).bind fun (whole, rest) =>
    (readFraction rest).bind fun (fraction, rest) =>
      (readExponent rest).map fun (exponent, rest) =>
        let n := Nat.ofDigitChars 10 whole 0
        if fraction = [] ∧ exponent = [] ∧ ¬(negative ∧ n = 0) then
          (.int (if negative then -n else n), rest)
        else (.decimal ((if negative then ['-'] else []) ++ whole ++ fraction ++ exponent), rest)

def readNumber (cs : List Char) : Option (Json × List Char) :=
  if cs.head? = some '-' then readUnsigned true cs.tail else readUnsigned false cs

/-- A fixed word. -/
def readWord (word : List Char) (v : Json) (cs : List Char) : Option (Json × List Char) :=
  if word.isPrefixOf cs then some (v, cs.drop word.length) else none

/-- A member put before others. Under a name that is no text nothing is found. -/
def consMember (name v : Json) (ms : List (String × Json)) : List (String × Json) :=
  match name with
  | .string k => (k, v) :: ms
  | _ => ms

section
variable (wide : Bool)

mutual
def readValue : Nat → List Char → Option (Json × List Char)
  | 0, _ => none
  | fuel + 1, cs =>
    match skipBlank cs with
    | [] => none
    | '"' :: rest => readText wide rest
    | '[' :: rest =>
      if (skipBlank rest).head? = some ']' then some (.array [], (skipBlank rest).tail)
      else (readItems fuel rest).map fun (vs, rest) => (.array vs, rest)
    | '{' :: rest =>
      if (skipBlank rest).head? = some '}' then some (.object [], (skipBlank rest).tail)
      else (readMembers fuel rest).map fun (ms, rest) => (.object ms, rest)
    | 'n' :: rest => readWord ['u', 'l', 'l'] .null rest
    | 't' :: rest => readWord ['r', 'u', 'e'] (.bool true) rest
    | 'f' :: rest => readWord ['a', 'l', 's', 'e'] (.bool false) rest
    | cs => readNumber cs

/-- Items up to the bracket, at least one. -/
def readItems : Nat → List Char → Option (List Json × List Char)
  | 0, _ => none
  | fuel + 1, cs =>
    (readValue fuel cs).bind fun (v, rest) =>
      match skipBlank rest with
      | ']' :: rest => some ([v], rest)
      | ',' :: rest => (readItems fuel rest).map fun (vs, rest) => (v :: vs, rest)
      | _ => none

/-- Members up to the brace, at least one. -/
def readMembers : Nat → List Char → Option (List (String × Json) × List Char)
  | 0, _ => none
  | fuel + 1, cs =>
    match skipBlank cs with
    | '"' :: rest =>
      (readText wide rest).bind fun (name, rest) =>
        match skipBlank rest with
        | ':' :: rest =>
          (readValue fuel rest).bind fun (v, rest) =>
            match skipBlank rest with
            | '}' :: rest => some (consMember name v [], rest)
            | ',' :: rest => (readMembers fuel rest).map fun (ms, rest) => (consMember name v ms, rest)
            | _ => none
        | _ => none
    | _ => none
end

/-- A whole text: one value and blanks. -/
def parseText (text : List Char) : Option Json :=
  (readValue wide (text.length + 1) text).bind fun (v, rest) =>
    if skipBlank rest = [] then some v else none

end

/-- The document of a text, whose strings are texts. -/
def parse (text : List Char) : Option Json := parseText false text

/-- The document of a text, whose strings are code units. -/
def parseWide (text : List Char) : Option Json := parseText true text

/-- How the first member is read, and what is behind it. -/
theorem readMembers_succ {fuel : Nat} {cs rest : List Char} {ms : List (String × Json)}
    (h : readMembers false (fuel + 1) cs = some (ms, rest)) :
    ∃ quoted name named colon v valued,
      skipBlank cs = '"' :: quoted ∧ readString quoted = some (name, named) ∧
      skipBlank named = ':' :: colon ∧ readValue false fuel colon = some (v, valued) ∧
      ((skipBlank valued = '}' :: rest ∧ ms = [(name, v)]) ∨
        ∃ next ns, skipBlank valued = ',' :: next ∧
          readMembers false fuel next = some (ns, rest) ∧ ms = (name, v) :: ns) := by
  rw [readMembers] at h
  split at h
  · next quoted hquote =>
    obtain ⟨⟨key, named⟩, hkey, h⟩ := Option.bind_eq_some_iff.1 h
    obtain ⟨⟨name, named'⟩, hname, heq⟩ := Option.map_eq_some_iff.1 hkey
    obtain ⟨rfl, rfl⟩ := Prod.mk.inj heq
    simp only at h
    split at h
    · next colon hcolon =>
      obtain ⟨⟨v, valued⟩, hv, h⟩ := Option.bind_eq_some_iff.1 h
      refine ⟨quoted, name, _, colon, v, valued, hquote, hname, hcolon, hv, ?_⟩
      simp only at h
      split at h
      · next hend =>
        cases h
        exact .inl ⟨hend, rfl⟩
      · next next hnext =>
        obtain ⟨⟨ns, rest'⟩, hns, heq⟩ := Option.map_eq_some_iff.1 h
        cases heq
        exact .inr ⟨next, ns, hnext, hns, rfl⟩
      · cases h
    · cases h
  · cases h

/-! ## Strings -/

/-- A control character is written as an escape. -/
theorem readUnicode_numeral {c : Char} (h : c < ' ') (rest : List Char) :
    readUnicode (numeral 16 4 c.toNat ++ rest) = some (c, rest) := by
  have hlt : c.toNat < 32 := h
  rw [readUnicode, readFixed_numeral (by decide) (by decide) (by omega)]
  show (if 0xD800 ≤ c.toNat ∧ c.toNat < 0xDC00 then readTrail c.toNat rest
    else if 0xDC00 ≤ c.toNat ∧ c.toNat < 0xE000 then none else some (Char.ofNat c.toNat, rest)) = _
  rw [if_neg (by omega), if_neg (by omega), Char.ofNat_toNat]

/-- A character is printed as a short escape, as its number or as it is. -/
theorem printChar_cases (c : Char) :
    (∃ d, printChar c = ['\\', d] ∧ ∀ rest, readEscape (d :: rest) = some (c, rest)) ∨
      (c < ' ' ∧ printChar c = '\\' :: 'u' :: numeral 16 4 c.toNat) ∨
      (printChar c = [c] ∧ c ≠ '"' ∧ c ≠ '\\' ∧ ¬c < ' ') := by
  unfold printChar
  split_ifs with h₁ h₂ h₃ h₄ h₅ h₆ h₇ hc
  · subst h₁; exact .inl ⟨_, rfl, fun _ => rfl⟩
  · subst h₂; exact .inl ⟨_, rfl, fun _ => rfl⟩
  · subst h₃; exact .inl ⟨_, rfl, fun _ => rfl⟩
  · subst h₄; exact .inl ⟨_, rfl, fun _ => rfl⟩
  · subst h₅; exact .inl ⟨_, rfl, fun _ => rfl⟩
  · subst h₆; exact .inl ⟨_, rfl, fun _ => rfl⟩
  · subst h₇; exact .inl ⟨_, rfl, fun _ => rfl⟩
  · exact .inr (.inl ⟨hc, rfl⟩)
  · exact .inr (.inr ⟨rfl, h₁, h₂, hc⟩)

theorem readChar_printChar (c : Char) (rest : List Char) :
    readChar (printChar c ++ rest) = some (c, rest) := by
  rcases printChar_cases c with ⟨d, hd, hread⟩ | ⟨hc, hd⟩ | ⟨hd, -, hslash, hc⟩
  · rw [hd]
    exact hread rest
  · rw [hd]
    exact readUnicode_numeral hc rest
  · rw [hd]
    show (if c = '\\' then readEscape rest else if c < ' ' then none else some (c, rest)) = _
    rw [if_neg hslash, if_neg hc]

/-- No printed character starts with a quote. -/
theorem head_printChar (c : Char) : ∃ d cs, printChar c = d :: cs ∧ d ≠ '"' := by
  rcases printChar_cases c with ⟨d, hd, -⟩ | ⟨-, hd⟩ | ⟨hd, hquote, -⟩
  · exact ⟨_, _, hd, by decide⟩
  · exact ⟨_, _, hd, by decide⟩
  · exact ⟨_, _, hd, hquote⟩

theorem printChar_length_le (c : Char) : (printChar c).length ≤ 6 := by
  rcases printChar_cases c with ⟨d, hd, -⟩ | ⟨-, hd⟩ | ⟨hd, -⟩
  · simp [hd]
  · simp [hd]
  · simp [hd]

theorem printString_length_le (s : String) : (printString s).length ≤ 6 * s.length + 2 := by
  have hchars : ∀ cs : List Char, (cs.flatMap printChar).length ≤ 6 * cs.length := by
    intro cs
    induction cs with
    | nil => exact Nat.le_refl 0
    | cons c cs ih =>
      have hc := printChar_length_le c
      rw [List.flatMap_cons, List.length_append, List.length_cons]
      omega
  have h := hchars s.toList
  rw [printString, List.length_cons, List.length_append, List.length_singleton,
    ← String.length_toList]
  omega

/-- A string that is read as a text is read as its code units. -/
theorem readUnits_of_readChars {fuel : Nat} {cs s rest : List Char}
    (h : readChars fuel cs = some (s, rest)) : readUnits fuel cs = some (Utf16.encode s, rest) := by
  induction fuel generalizing cs s with
  | zero => cases h
  | succ fuel ih =>
    rw [readChars] at h
    rw [readUnits]
    split at h
    · next hquote =>
      cases h
      rw [if_pos hquote]
      rfl
    · next hquote =>
      obtain ⟨⟨c, rest'⟩, hc, h⟩ := Option.bind_eq_some_iff.1 h
      obtain ⟨⟨s', rest⟩, hs, heq⟩ := Option.map_eq_some_iff.1 h
      cases heq
      rw [if_neg hquote, readUnit, hc]
      show (readUnits fuel rest').map _ = _
      rw [ih hs]
      rfl

theorem ofUnits_encode (s : List Char) : ofUnits (Utf16.encode s) = .string (String.ofList s) := by
  rw [ofUnits, Utf16.decode_encode]

/-- A text is read as it is among the code units. -/
theorem readText_wide {cs rest : List Char} {v : Json} (h : readText false cs = some (v, rest)) :
    readText true cs = some (v, rest) := by
  obtain ⟨⟨s, rest'⟩, hs, heq⟩ := Option.map_eq_some_iff.1 h
  obtain ⟨⟨s', rest''⟩, hchars, heq'⟩ := Option.map_eq_some_iff.1 hs
  cases heq
  cases heq'
  show (readUnits _ _).map _ = _
  rw [readUnits_of_readChars hchars, Option.map_some]
  simp only [ofUnits_encode]

theorem readChars_print {fuel : Nat} {s : List Char} (h : s.length < fuel) (rest : List Char) :
    readChars fuel (s.flatMap printChar ++ '"' :: rest) = some (s, rest) := by
  induction s generalizing fuel with
  | nil =>
    obtain _ | fuel := fuel
    · cases h
    · rfl
  | cons c s ih =>
    obtain _ | fuel := fuel
    · cases h
    · obtain ⟨d, cs, hc, hd⟩ := head_printChar c
      have hhead : ((c :: s).flatMap printChar ++ '"' :: rest).head? ≠ some '"' := by
        simpa [List.flatMap_cons, hc] using hd
      rw [readChars, if_neg hhead, List.flatMap_cons, List.append_assoc, readChar_printChar]
      show (readChars fuel (s.flatMap printChar ++ '"' :: rest)).map _ = _
      rw [ih (Nat.lt_of_succ_lt_succ h)]
      rfl

theorem length_le_printChars (s : List Char) : s.length ≤ (s.flatMap printChar).length := by
  induction s with
  | nil => exact Nat.le_refl _
  | cons c s ih =>
    obtain ⟨d, cs, hc, -⟩ := head_printChar c
    rw [List.flatMap_cons, List.length_append, hc]
    simp only [List.length_cons]
    omega

/-- A string after its opening quote. -/
theorem readString_print (s : String) (rest : List Char) :
    readString (s.toList.flatMap printChar ++ '"' :: rest) = some (s, rest) := by
  have hlen := length_le_printChars s.toList
  rw [readString, readChars_print (by simp only [List.length_append]; omega)]
  simp

theorem readUnits_print {fuel : Nat} {s : List Char} (h : s.length < fuel) (rest : List Char) :
    readUnits fuel (s.flatMap printChar ++ '"' :: rest) = some (Utf16.encode s, rest) :=
  readUnits_of_readChars (readChars_print h rest)

/-- A printed string is read either way. -/
theorem readText_print (wide : Bool) (s : String) (rest : List Char) :
    readText wide (s.toList.flatMap printChar ++ '"' :: rest) = some (.string s, rest) := by
  cases wide with
  | false =>
    show (readString _).map _ = _
    rw [readString_print]
    rfl
  | true =>
    have hlen := length_le_printChars s.toList
    show (readUnits _ _).map _ = _
    rw [readUnits_print (by simp only [List.length_append]; omega), Option.map_some]
    simp only [ofUnits_encode, String.ofList_toList]

/-! ## Numbers -/

/-- What may follow a number: nothing that would continue it. -/
def Ends (rest : List Char) : Prop :=
  ∀ c, rest.head? = some c → c.isDigit = false ∧ c ≠ '.' ∧ isExponentMark c = false

theorem ends_nil : Ends [] := fun c h => by cases h

theorem ends_cons {c : Char} (h : c = ',' ∨ c = ']' ∨ c = '}') (rest : List Char) :
    Ends (c :: rest) := by
  intro d hd
  cases hd
  rcases h with rfl | rfl | rfl <;> decide

theorem isDigit_toDigits {n : Nat} {c : Char} (h : c ∈ Nat.toDigits 10 n) : c.isDigit = true :=
  Nat.isDigit_of_mem_toDigits (by decide) (by decide) h

/-- No zero in front. -/
theorem head_toDigits {n : Nat} (h : 0 < n) : (Nat.toDigits 10 n).head? ≠ some '0' := by
  induction n using Nat.strongRecOn with
  | ind n ih =>
    by_cases hn : n < 10
    · have key : ∀ d : Fin 10, 0 < d.val → [d.val.digitChar].head? ≠ some '0' := by decide
      rw [Nat.toDigits_of_lt_base hn]
      exact key ⟨n, hn⟩ h
    · have hdiv : 0 < n / 10 := by omega
      rw [Nat.toDigits_of_base_le (by decide) (by omega),
        List.head?_append_of_ne_nil _ Nat.toDigits_ne_nil]
      exact ih (n / 10) (by omega) hdiv

theorem readDigits_toDigits {n : Nat} {rest : List Char} (h : Ends rest) :
    readDigits (Nat.toDigits 10 n ++ rest) = some (Nat.toDigits 10 n, rest) := by
  have hdigits : ∀ c ∈ Nat.toDigits 10 n, c.isDigit = true := fun c hc => isDigit_toDigits hc
  have hstop : rest.takeWhile Char.isDigit = [] ∧ rest.dropWhile Char.isDigit = rest := by
    cases rest with
    | nil => exact ⟨rfl, rfl⟩
    | cons c rest =>
      have hc := (h c rfl).1
      simp [hc]
  have hne : (Nat.toDigits 10 n).isEmpty = false := by simp
  rw [readDigits, List.takeWhile_append_of_pos hdigits, List.dropWhile_append_of_pos hdigits,
    hstop.1, hstop.2, List.append_nil, hne]
  rfl

theorem readUnsigned_toDigits {n : Nat} {negative : Bool} (hn : negative = true → 0 < n)
    {rest : List Char} (h : Ends rest) : readUnsigned negative (Nat.toDigits 10 n ++ rest) =
      some (.int (if negative then -(n : Int) else n), rest) := by
  have hwhole : readWhole (Nat.toDigits 10 n ++ rest) = some (Nat.toDigits 10 n, rest) := by
    rw [readWhole, readDigits_toDigits h]
    show (if _ ∧ _ then _ else _) = _
    rw [if_neg]
    rintro ⟨hz, hl⟩
    cases n with
    | zero => exact absurd hl (by decide)
    | succ n => exact head_toDigits (Nat.succ_pos n) hz
  have hfraction : readFraction rest = some ([], rest) := by
    rw [readFraction, if_neg]
    intro hdot
    exact (h '.' hdot).2.1 rfl
  have hexponent : readExponent rest = some ([], rest) := by
    cases rest with
    | nil => rfl
    | cons c rest => simp [readExponent, (h c rfl).2.2]
  rw [readUnsigned, hwhole]
  show (readFraction rest).bind _ = _
  rw [hfraction]
  show (readExponent rest).map _ = _
  rw [hexponent]
  have hsign : ¬((negative : Prop) ∧ n = 0) := fun ⟨hneg, hz⟩ => by have := hn hneg; omega
  simp [hsign]

theorem readNumber_printInt (n : Int) {rest : List Char} (h : Ends rest) :
    readNumber (printInt n ++ rest) = some (.int n, rest) := by
  unfold printInt
  split
  · next hneg =>
    rw [readNumber, List.cons_append, if_pos (by rfl), List.tail_cons,
      readUnsigned_toDigits (fun _ => by omega) h]
    have hvalue : -(n.natAbs : Int) = n := by omega
    show some (Json.int (-(n.natAbs : Int)), rest) = some (Json.int n, rest)
    rw [hvalue]
  · next hpos =>
    have hhead : (Nat.toDigits 10 n.natAbs ++ rest).head? ≠ some '-' := by
      rw [List.head?_append_of_ne_nil _ Nat.toDigits_ne_nil]
      intro hc
      exact absurd (isDigit_toDigits (List.mem_of_head? hc)) (by decide)
    rw [readNumber, if_neg hhead, readUnsigned_toDigits (by simp) h]
    have : (n.natAbs : Int) = n := by omega
    simp [this]

/-! ## Documents -/

mutual
/-- Every number is an integer and every string a text. -/
def Plain : Json → Prop
  | .decimal _ | .illFormed _ => False
  | .array vs => PlainItems vs
  | .object ms => PlainMembers ms
  | _ => True

def PlainItems : List Json → Prop
  | [] => True
  | v :: vs => Plain v ∧ PlainItems vs

def PlainMembers : List (String × Json) → Prop
  | [] => True
  | (_, v) :: ms => Plain v ∧ PlainMembers ms
end

theorem skipBlank_cons {c : Char} (h : isBlank c = false) (rest : List Char) :
    skipBlank (c :: rest) = c :: rest := by
  rw [skipBlank, List.dropWhile_cons, h]
  rfl

/-- The first character of an integer. -/
theorem head_printInt (n : Int) : ∃ c cs, printInt n = c :: cs ∧ (c = '-' ∨ c.isDigit = true) := by
  unfold printInt
  split
  · exact ⟨_, _, rfl, .inl rfl⟩
  · cases h : Nat.toDigits 10 n.natAbs with
    | nil => exact absurd h Nat.toDigits_ne_nil
    | cons c cs => exact ⟨c, cs, rfl, .inr (isDigit_toDigits (by rw [h]; exact List.mem_cons_self))⟩

theorem readValue_number {wide : Bool} {fuel : Nat} {c : Char} (h : c = '-' ∨ c.isDigit = true)
    (rest : List Char) : readValue wide (fuel + 1) (c :: rest) = readNumber (c :: rest) := by
  have hne : ∀ d : Char, (d = '-' ∨ d.isDigit = true) ∨ c ≠ d := by
    intro d
    by_cases hd : c = d
    · exact .inl (hd ▸ h)
    · exact .inr hd
  have hblank : isBlank c = false := by
    have h₁ := (hne ' ').resolve_left (by decide)
    have h₂ := (hne '\n').resolve_left (by decide)
    have h₃ := (hne '\r').resolve_left (by decide)
    have h₄ := (hne '\t').resolve_left (by decide)
    simp [isBlank, h₁, h₂, h₃, h₄]
  rw [readValue, skipBlank_cons hblank]
  split
  · next heq => cases heq
  · next heq => cases heq; exact absurd h (by decide)
  · next heq => cases heq; exact absurd h (by decide)
  · next heq => cases heq; exact absurd h (by decide)
  · next heq => cases heq; exact absurd h (by decide)
  · next heq => cases heq; exact absurd h (by decide)
  · next heq => cases heq; exact absurd h (by decide)
  · rfl

theorem readValue_int {wide : Bool} {fuel : Nat} (n : Int) {rest : List Char} (h : Ends rest) :
    readValue wide (fuel + 1) (printInt n ++ rest) = some (.int n, rest) := by
  obtain ⟨c, cs, hc, hd⟩ := head_printInt n
  rw [← readNumber_printInt n h, hc]
  exact readValue_number hd _

section
variable (wide : Bool) (fuel : Nat) (rest : List Char)

@[simp] theorem readValue_string :
    readValue wide (fuel + 1) ('"' :: rest) = readText wide rest := rfl

@[simp] theorem readValue_array : readValue wide (fuel + 1) ('[' :: rest) =
    if (skipBlank rest).head? = some ']' then some (.array [], (skipBlank rest).tail)
    else (readItems wide fuel rest).map fun (vs, rest) => (.array vs, rest) := rfl

@[simp] theorem readValue_object : readValue wide (fuel + 1) ('{' :: rest) =
    if (skipBlank rest).head? = some '}' then some (.object [], (skipBlank rest).tail)
    else (readMembers wide fuel rest).map fun (ms, rest) => (.object ms, rest) := rfl

end

/-- A printed string, in front of any text. -/
theorem printString_append (s : String) (rest : List Char) :
    printString s ++ rest = '"' :: (s.toList.flatMap printChar ++ '"' :: rest) := by
  simp [printString]

/-- The name of a member, its colon and its value. -/
theorem readMembers_member {wide : Bool} {fuel : Nat} {k : String} {v : Json} {tail : List Char}
    (h : readValue wide fuel tail = some (v, rest)) :
    readMembers wide (fuel + 1) (printString k ++ ':' :: tail) =
      match skipBlank rest with
      | '}' :: rest => some ([(k, v)], rest)
      | ',' :: rest => (readMembers wide fuel rest).map fun (ms, rest) => ((k, v) :: ms, rest)
      | _ => none := by
  rw [printString_append]
  show (readText wide _).bind _ = _
  rw [readText_print]
  show (readValue wide fuel tail).bind _ = _
  rw [h]
  rfl

/-- A value never begins with a closing bracket, a closing brace or a blank. -/
theorem head_print {v : Json} (h : Plain v) : ∃ c cs, print v = c :: cs ∧
    c ≠ ']' ∧ isBlank c = false := by
  cases v with
  | decimal literal => cases h
  | illFormed units => cases h
  | int n =>
    obtain ⟨c, cs, hc, hd⟩ := head_printInt n
    refine ⟨c, cs, hc, ?_, ?_⟩
    · rintro rfl
      exact absurd hd (by decide)
    · cases hb : isBlank c with
      | false => rfl
      | true =>
        simp only [isBlank, Bool.or_eq_true, decide_eq_true_eq] at hb
        rcases hb with ((rfl | rfl) | rfl) | rfl <;> exact absurd hd (by decide)
  | bool b => cases b <;> exact ⟨_, _, rfl, by decide, by decide⟩
  | array vs => cases vs <;> exact ⟨_, _, rfl, by decide, by decide⟩
  | object ms =>
    cases ms with
    | nil => exact ⟨_, _, rfl, by decide, by decide⟩
    | cons m ms => exact ⟨_, _, rfl, by decide, by decide⟩
  | _ => exact ⟨_, _, rfl, by decide, by decide⟩

theorem skipBlank_print {v : Json} (h : Plain v) (rest : List Char) :
    skipBlank (print v ++ rest) = print v ++ rest ∧ (print v ++ rest).head? ≠ some ']' := by
  obtain ⟨c, cs, hc, hne, hb⟩ := head_print h
  rw [hc, List.cons_append, skipBlank_cons hb]
  refine ⟨rfl, fun he => hne ?_⟩
  cases he
  rfl

theorem ends_printItems (vs : List Json) (rest : List Char) : Ends (printItems vs ++ rest) := by
  cases vs with
  | nil => exact ends_cons (.inr (.inl rfl)) rest
  | cons v vs => exact ends_cons (.inl rfl) _

theorem ends_printMembers (ms : List (String × Json)) (rest : List Char) :
    Ends (printMembers ms ++ rest) := by
  cases ms with
  | nil => exact ends_cons (.inr (.inr rfl)) rest
  | cons m ms => exact ends_cons (.inl rfl) _

mutual
theorem readValue_print (wide : Bool) : (fuel : Nat) → (v : Json) → Plain v → (print v).length < fuel →
    (rest : List Char) → Ends rest → readValue wide fuel (print v ++ rest) = some (v, rest)
  | 0, _, _, hf, _, _ => absurd hf (Nat.not_lt_zero _)
  | _ + 1, .null, _, _, _, _ => rfl
  | _ + 1, .bool true, _, _, _, _ => rfl
  | _ + 1, .bool false, _, _, _, _ => rfl
  | _ + 1, .int n, _, _, _, hends => readValue_int n hends
  | fuel + 1, .string s, _, _, rest, _ => by
    rw [print, printString_append, readValue_string, readText_print]
  | _ + 1, .array [], _, _, _, _ => rfl
  | fuel + 1, .array (v :: vs), hp, hf, rest, _ => by
    have hlen : (print v ++ printItems vs).length < fuel := by simpa [print] using hf
    have hread := readItems_print wide fuel v vs hp.1 hp.2 hlen rest
    obtain ⟨hskip, hhead⟩ := skipBlank_print hp.1 (printItems vs ++ rest)
    rw [List.append_assoc] at hread
    rw [print, List.cons_append, List.append_assoc, readValue_array, hskip, if_neg hhead, hread]
    rfl
  | _ + 1, .object [], _, _, _, _ => rfl
  | fuel + 1, .object ((k, v) :: ms), hp, hf, rest, _ => by
    have hlen : (printString k ++ ':' :: (print v ++ printMembers ms)).length < fuel := by
      simpa [print] using hf
    have hread := readMembers_print wide fuel k v ms hp.1 hp.2 hlen rest
    rw [print, List.cons_append, readValue_object, hread, List.append_assoc, printString_append,
      skipBlank_cons (by decide), if_neg (by simp)]
    rfl

theorem readItems_print (wide : Bool) : (fuel : Nat) → (v : Json) → (vs : List Json) → Plain v →
    PlainItems vs → (print v ++ printItems vs).length < fuel → (rest : List Char) →
    readItems wide fuel (print v ++ printItems vs ++ rest) = some (v :: vs, rest)
  | 0, _, _, _, _, hf, _ => absurd hf (Nat.not_lt_zero _)
  | fuel + 1, v, [], hv, _, hf, rest => by
    have hlen : (print v).length < fuel := by
      simp only [List.length_append, printItems, List.length_singleton] at hf
      omega
    rw [readItems, List.append_assoc,
      readValue_print wide fuel v hv hlen _ (ends_printItems [] rest)]
    rfl
  | fuel + 1, v, w :: vs, hv, hvs, hf, rest => by
    have hlen : (print v).length < fuel ∧ (print w ++ printItems vs).length < fuel := by
      simp only [List.length_append, printItems, List.length_cons] at hf ⊢
      omega
    rw [readItems, List.append_assoc,
      readValue_print wide fuel v hv hlen.1 _ (ends_printItems (w :: vs) rest)]
    show (readItems wide fuel (print w ++ printItems vs ++ rest)).map _ = _
    rw [readItems_print wide fuel w vs hvs.1 hvs.2 hlen.2 rest]
    rfl

theorem readMembers_print (wide : Bool) : (fuel : Nat) → (k : String) → (v : Json) →
    (ms : List (String × Json)) → Plain v → PlainMembers ms →
    (printString k ++ ':' :: (print v ++ printMembers ms)).length < fuel → (rest : List Char) →
    readMembers wide fuel (printString k ++ ':' :: (print v ++ printMembers ms) ++ rest) =
      some ((k, v) :: ms, rest)
  | 0, _, _, _, _, _, hf, _ => absurd hf (Nat.not_lt_zero _)
  | fuel + 1, k, v, [], hv, _, hf, rest => by
    have hlen : (print v).length < fuel := by
      simp only [List.length_append, List.length_cons] at hf
      omega
    rw [List.append_assoc, List.cons_append, List.append_assoc,
      readMembers_member (readValue_print wide fuel v hv hlen _ (ends_printMembers [] rest))]
    rfl
  | fuel + 1, k, v, (l, w) :: ms, hv, hms, hf, rest => by
    have hlen : (print v).length < fuel ∧
        (printString l ++ ':' :: (print w ++ printMembers ms)).length < fuel := by
      simp only [List.length_append, printMembers, List.length_cons] at hf ⊢
      omega
    rw [List.append_assoc, List.cons_append, List.append_assoc,
      readMembers_member (readValue_print wide fuel v hv hlen.1 _ (ends_printMembers ((l, w) :: ms) rest))]
    show (readMembers wide fuel
      (printString l ++ ':' :: (print w ++ printMembers ms) ++ rest)).map _ = _
    rw [readMembers_print wide fuel l w ms hms.1 hms.2 hlen.2 rest]
    rfl
end

theorem parseText_print (wide : Bool) {v : Json} (h : Plain v) :
    parseText wide (print v) = some v := by
  have hread := readValue_print wide _ v h (Nat.lt_succ_self _) [] ends_nil
  rw [List.append_nil] at hread
  rw [parseText, hread]
  rfl

/-- Reading undoes printing. -/
theorem parse_print {v : Json} (h : Plain v) : parse (print v) = some v := parseText_print false h

theorem parseWide_print {v : Json} (h : Plain v) : parseWide (print v) = some v :=
  parseText_print true h

/-! ## Texts among code units -/

/-- A value, items or members that are read strictly are read wide. -/
structure ReadWide (fuel : Nat) : Prop where
  value : ∀ {cs rest v}, readValue false fuel cs = some (v, rest) →
    readValue true fuel cs = some (v, rest)
  items : ∀ {cs rest vs}, readItems false fuel cs = some (vs, rest) →
    readItems true fuel cs = some (vs, rest)
  members : ∀ {cs rest ms}, readMembers false fuel cs = some (ms, rest) →
    readMembers true fuel cs = some (ms, rest)

theorem readWide_value {fuel : Nat} (ih : ReadWide fuel) {cs rest : List Char} {v : Json}
    (h : readValue false (fuel + 1) cs = some (v, rest)) :
    readValue true (fuel + 1) cs = some (v, rest) := by
  rw [readValue] at h ⊢
  split at h
  · cases h
  · exact readText_wide h
  · split at h
    · next hempty =>
      rw [if_pos hempty]
      exact h
    · next hempty =>
      obtain ⟨⟨vs, rest'⟩, hvs, heq⟩ := Option.map_eq_some_iff.1 h
      rw [if_neg hempty, ih.items hvs]
      exact congrArg some heq
  · split at h
    · next hempty =>
      rw [if_pos hempty]
      exact h
    · next hempty =>
      obtain ⟨⟨ms, rest'⟩, hms, heq⟩ := Option.map_eq_some_iff.1 h
      rw [if_neg hempty, ih.members hms]
      exact congrArg some heq
  · exact h
  · exact h
  · exact h
  · exact h

theorem readWide_items {fuel : Nat} (ih : ReadWide fuel) {cs rest : List Char} {vs : List Json}
    (h : readItems false (fuel + 1) cs = some (vs, rest)) :
    readItems true (fuel + 1) cs = some (vs, rest) := by
  rw [readItems] at h ⊢
  obtain ⟨⟨v, rest'⟩, hv, h⟩ := Option.bind_eq_some_iff.1 h
  rw [ih.value hv]
  simp only [Option.bind_some] at h ⊢
  split at h
  · exact h
  · obtain ⟨⟨ws, rest''⟩, hws, heq⟩ := Option.map_eq_some_iff.1 h
    rw [ih.items hws]
    exact congrArg some heq
  · cases h

theorem readWide_members {fuel : Nat} (ih : ReadWide fuel) {cs rest : List Char}
    {ms : List (String × Json)} (h : readMembers false (fuel + 1) cs = some (ms, rest)) :
    readMembers true (fuel + 1) cs = some (ms, rest) := by
  rw [readMembers] at h ⊢
  split at h
  · obtain ⟨⟨name, rest₁⟩, hname, h⟩ := Option.bind_eq_some_iff.1 h
    rw [readText_wide hname]
    simp only [Option.bind_some] at h ⊢
    split at h
    · obtain ⟨⟨v, rest₂⟩, hv, h⟩ := Option.bind_eq_some_iff.1 h
      rw [ih.value hv]
      simp only [Option.bind_some] at h ⊢
      split at h
      · exact h
      · obtain ⟨⟨ns, rest₃⟩, hns, heq⟩ := Option.map_eq_some_iff.1 h
        rw [ih.members hns]
        exact congrArg some heq
      · cases h
    · cases h
  · cases h

theorem readWide (fuel : Nat) : ReadWide fuel := by
  induction fuel with
  | zero => exact ⟨fun h => (by cases h), fun h => (by cases h), fun h => (by cases h)⟩
  | succ fuel ih => exact ⟨readWide_value ih, readWide_items ih, readWide_members ih⟩

/-! ## Lines -/

/-- Nothing ends the line. -/
def OneLine (cs : List Char) : Prop := ∀ c ∈ cs, c ≠ '\n' ∧ c ≠ '\r'

instance (cs : List Char) : Decidable (OneLine cs) :=
  List.decidableBAll (fun c => c ≠ '\n' ∧ c ≠ '\r') cs

theorem oneLine_cons {c : Char} {cs : List Char} :
    OneLine (c :: cs) ↔ (c ≠ '\n' ∧ c ≠ '\r') ∧ OneLine cs := List.forall_mem_cons

theorem oneLine_append {a b : List Char} : OneLine (a ++ b) ↔ OneLine a ∧ OneLine b :=
  List.forall_mem_append

theorem oneLine_digits {cs : List Char} (h : ∀ c ∈ cs, c.isDigit = true) : OneLine cs := by
  intro c hc
  have hdigit := h c hc
  constructor
  · rintro rfl
    cases hdigit
  · rintro rfl
    cases hdigit

theorem oneLine_printChar (c : Char) : OneLine (printChar c) := by
  unfold printChar
  split_ifs with h₁ h₂ h₃ h₄ h₅ h₆ h₇ hc
  · decide
  · decide
  · decide
  · decide
  · decide
  · decide
  · decide
  · rw [oneLine_cons, oneLine_cons]
    refine ⟨by decide, by decide, fun d hd => ?_⟩
    obtain ⟨n, hn, rfl⟩ := mem_numeral (show 0 < 16 by decide) hd
    have key : ∀ n : Fin 16, n.val.digitChar ≠ '\n' ∧ n.val.digitChar ≠ '\r' := by decide
    exact key ⟨n, hn⟩
  · exact List.forall_mem_singleton.2 ⟨h₅, h₇⟩

theorem oneLine_printString (s : String) : OneLine (printString s) := by
  rw [printString, oneLine_cons, oneLine_append]
  refine ⟨by decide, fun c hc => ?_, by simp [OneLine]⟩
  obtain ⟨d, -, hd⟩ := List.mem_flatMap.1 hc
  exact oneLine_printChar d c hd

theorem oneLine_printInt (n : Int) : OneLine (printInt n) := by
  unfold printInt
  split
  · exact oneLine_cons.2 ⟨by decide, oneLine_digits fun c hc => isDigit_toDigits hc⟩
  · exact oneLine_digits fun c hc => isDigit_toDigits hc

mutual
/-- The compact text of a document is one line. -/
theorem oneLine_print : (v : Json) → Plain v → OneLine (print v)
  | .null, _ => by simp [print, OneLine]
  | .bool true, _ => by simp [print, OneLine]
  | .bool false, _ => by simp [print, OneLine]
  | .int n, _ => oneLine_printInt n
  | .string s, _ => oneLine_printString s
  | .array [], _ => by simp [print, OneLine]
  | .array (v :: vs), h => by
    rw [print, oneLine_cons, oneLine_append]
    exact ⟨by decide, oneLine_print v h.1, oneLine_printItems vs h.2⟩
  | .object [], _ => by simp [print, OneLine]
  | .object ((k, v) :: ms), h => by
    rw [print, oneLine_cons, oneLine_append, oneLine_cons, oneLine_append]
    exact ⟨by decide, oneLine_printString k, by decide, oneLine_print v h.1,
      oneLine_printMembers ms h.2⟩

theorem oneLine_printItems : (vs : List Json) → PlainItems vs → OneLine (printItems vs)
  | [], _ => by simp [printItems, OneLine]
  | v :: vs, h => by
    rw [printItems, oneLine_cons, oneLine_append]
    exact ⟨by decide, oneLine_print v h.1, oneLine_printItems vs h.2⟩

theorem oneLine_printMembers : (ms : List (String × Json)) → PlainMembers ms →
    OneLine (printMembers ms)
  | [], _ => by simp [printMembers, OneLine]
  | (k, v) :: ms, h => by
    rw [printMembers, oneLine_cons, oneLine_append, oneLine_cons, oneLine_append]
    exact ⟨by decide, oneLine_printString k, by decide, oneLine_print v h.1,
      oneLine_printMembers ms h.2⟩
end

end Json
end CodingAgent
