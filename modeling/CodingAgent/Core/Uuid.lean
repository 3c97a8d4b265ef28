import CodingAgent.Core.Digits

/-!
# UUID texts

The hyphenated lower-case text of a 128-bit value, and the reader of the four
accepted forms: 32 digits, hyphenated, hyphenated in braces, and hyphenated
after `urn:uuid:`.

* `parse_format`: the reader undoes the writer.
-/
namespace CodingAgent.UuidText
open Digits

/-- The hyphenated text: 8, 4, 4, 4 and 12 digits. -/
def format (n : Nat) : List Char :=
  numeral 16 8 (n / 2 ^ 96) ++ '-' :: (numeral 16 4 (n / 2 ^ 80 % 2 ^ 16) ++
    '-' :: (numeral 16 4 (n / 2 ^ 64 % 2 ^ 16) ++ '-' :: (numeral 16 4 (n / 2 ^ 48 % 2 ^ 16) ++
    '-' :: numeral 16 12 (n % 2 ^ 48))))

def parseHyphenated (cs : List Char) : Option Nat := do
  let (timeLow, cs) ← readFixed 16 8 cs
  let cs ← expect '-' cs
  let (timeMid, cs) ← readFixed 16 4 cs
  let cs ← expect '-' cs
  let (timeHigh, cs) ← readFixed 16 4 cs
  let cs ← expect '-' cs
  let (clock, cs) ← readFixed 16 4 cs
  let cs ← expect '-' cs
  let (node, cs) ← readFixed 16 12 cs
  if cs = [] then
    some (2 ^ 96 * timeLow + 2 ^ 80 * timeMid + 2 ^ 64 * timeHigh + 2 ^ 48 * clock + node)
  else none

def parseSimple (cs : List Char) : Option Nat := do
  let (n, cs) ← readFixed 16 32 cs
  if cs = [] then some n else none

/-- The length of a text decides its form. -/
def parse (cs : List Char) : Option Nat :=
  if cs.length = 32 then parseSimple cs
  else if cs.length = 36 then parseHyphenated cs
  else if cs.length = 38 ∧ cs.head? = some '{' ∧ cs.getLast? = some '}' then
    parseHyphenated cs.tail.dropLast
  else if cs.length = 45 ∧ cs.take 9 = ['u', 'r', 'n', ':', 'u', 'u', 'i', 'd', ':'] then
    parseHyphenated (cs.drop 9)
  else none

theorem format_length (n : Nat) : (format n).length = 36 := by
  simp [format]

theorem parseHyphenated_format {n : Nat} (h : n < 2 ^ 128) :
    parseHyphenated (format n) = some n := by
  have hlow : n / 2 ^ 96 < 16 ^ 8 := by omega
  have hmid : n / 2 ^ 80 % 2 ^ 16 < 16 ^ 4 := by omega
  have hhigh : n / 2 ^ 64 % 2 ^ 16 < 16 ^ 4 := by omega
  have hclock : n / 2 ^ 48 % 2 ^ 16 < 16 ^ 4 := by omega
  have hnode : n % 2 ^ 48 < 16 ^ 12 := by omega
  -- each group is read back in front of the groups after it
  have read : ∀ {w n : Nat}, n < 16 ^ w → ∀ rest, readFixed 16 w (numeral 16 w n ++ rest) =
      some (n, rest) := fun hn rest => readFixed_numeral (by decide) (by decide) hn rest
  have last : readFixed 16 12 (numeral 16 12 (n % 2 ^ 48)) = some (n % 2 ^ 48, []) := by
    have := read hnode []
    rwa [List.append_nil] at this
  have sum : 2 ^ 96 * (n / 2 ^ 96) + 2 ^ 80 * (n / 2 ^ 80 % 2 ^ 16) +
      2 ^ 64 * (n / 2 ^ 64 % 2 ^ 16) + 2 ^ 48 * (n / 2 ^ 48 % 2 ^ 16) + n % 2 ^ 48 = n := by omega
  simp only [parseHyphenated, format, read hlow, read hmid, read hhigh, read hclock, last,
    expect_cons, Option.bind_eq_bind, Option.bind_some, if_true]
  rw [sum]

/-- The reader undoes the writer. -/
theorem parse_format {n : Nat} (h : n < 2 ^ 128) : parse (format n) = some n := by
  rw [parse, format_length, if_neg (by decide), if_pos rfl, parseHyphenated_format h]

end CodingAgent.UuidText
