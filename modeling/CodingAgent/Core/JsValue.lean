import CodingAgent.Core.Json

/-!
# Documents as values of JavaScript

What `JSON.parse` makes of the text of a document: an integer is the closest
double, and of the members of an object that have one name the last counts.
Numbers with a fraction or an exponent are not interpreted, and infinity is
not either: the integers below are taken to be within the doubles.

* `nearest_of_le`: a natural number up to 2^53 is a double.
* `jsValue_of_exact`: a document of such integers, with every name once, is kept.
-/
namespace CodingAgent.Json

/-! ## Integers -/

/-- The closest multiple of `2 ^ e`; of two that are as close, the even one. -/
def roundTo (e n : Nat) : Nat :=
  let q := n / 2 ^ e
  let r := n % 2 ^ e
  if 2 * r < 2 ^ e then q * 2 ^ e
  else if 2 ^ e < 2 * r then (q + 1) * 2 ^ e
  else (q + q % 2) * 2 ^ e

/-- The closest number of 53 significant bits. -/
def nearest (n : Nat) : Nat := roundTo (n.log2 + 1 - 53) n

/-- The double of an integer. -/
def jsNumber (n : Int) : Int := if n < 0 then -(nearest n.natAbs) else nearest n.natAbs

theorem roundTo_zero (n : Nat) : roundTo 0 n = n := by
  simp only [roundTo, Nat.pow_zero, Nat.div_one, Nat.mod_one, Nat.mul_one, Nat.mul_zero,
    Nat.zero_lt_one, if_true]

theorem nearest_of_le {n : Nat} (h : n ≤ 2 ^ 53) : nearest n = n := by
  rcases Nat.lt_or_eq_of_le h with hlt | rfl
  · have hlog : n.log2 + 1 - 53 = 0 := by
      rcases Nat.eq_zero_or_pos n with rfl | hpos
      · rfl
      · have := (Nat.log2_lt (Nat.ne_of_gt hpos)).2 hlt
        omega
    rw [nearest, hlog, roundTo_zero]
  · decide +kernel

theorem jsNumber_of_le {n : Int} (h : n.natAbs ≤ 2 ^ 53) : jsNumber n = n := by
  rw [jsNumber, nearest_of_le h]
  split <;> omega

/-! ## Documents -/

/-- Of the members of one name the last one. -/
def lastMembers : List (String × Json) → List (String × Json)
  | [] => []
  | (k, v) :: ms => if k ∈ ms.map (·.1) then lastMembers ms else (k, v) :: lastMembers ms

mutual
/-- The value of a document. -/
def jsValue : Json → Json
  | .int n => .int (jsNumber n)
  | .array vs => .array (jsItems vs)
  | .object ms => .object (lastMembers (jsMembers ms))
  | v => v

def jsItems : List Json → List Json
  | [] => []
  | v :: vs => jsValue v :: jsItems vs

def jsMembers : List (String × Json) → List (String × Json)
  | [] => []
  | (k, v) :: ms => (k, jsValue v) :: jsMembers ms
end

mutual
/-- Every integer is a double up to 2^53, and no name stands twice in an object. -/
def Exact : Json → Prop
  | .int n => n.natAbs ≤ 2 ^ 53
  | .array vs => ExactItems vs
  | .object ms => (ms.map (·.1)).Nodup ∧ ExactMembers ms
  | _ => True

def ExactItems : List Json → Prop
  | [] => True
  | v :: vs => Exact v ∧ ExactItems vs

def ExactMembers : List (String × Json) → Prop
  | [] => True
  | (_, v) :: ms => Exact v ∧ ExactMembers ms
end

theorem lastMembers_of_nodup {ms : List (String × Json)} (h : (ms.map (·.1)).Nodup) :
    lastMembers ms = ms := by
  induction ms with
  | nil => rfl
  | cons m ms ih =>
    obtain ⟨k, v⟩ := m
    obtain ⟨hk, hms⟩ := List.nodup_cons.1 (List.map_cons .. ▸ h)
    rw [lastMembers, if_neg hk, ih hms]

mutual
/-- A document of small integers is its own value. -/
theorem jsValue_of_exact : (v : Json) → Exact v → jsValue v = v
  | .null, _ | .bool _, _ | .decimal _, _ | .string _, _ | .illFormed _, _ => rfl
  | .int n, h => congrArg Json.int (jsNumber_of_le h)
  | .array vs, h => congrArg Json.array (jsItems_of_exact vs h)
  | .object ms, h => by
    rw [jsValue, jsMembers_of_exact ms h.2, lastMembers_of_nodup h.1]

theorem jsItems_of_exact : (vs : List Json) → ExactItems vs → jsItems vs = vs
  | [], _ => rfl
  | v :: vs, h => by rw [jsItems, jsValue_of_exact v h.1, jsItems_of_exact vs h.2]

theorem jsMembers_of_exact : (ms : List (String × Json)) → ExactMembers ms → jsMembers ms = ms
  | [], _ => rfl
  | (k, v) :: ms, h => by rw [jsMembers, jsValue_of_exact v h.1, jsMembers_of_exact ms h.2]
end

end CodingAgent.Json
