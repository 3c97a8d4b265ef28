import Mathlib.Algebra.Order.Ring.Int
import Mathlib.Data.List.Basic
import Mathlib.Data.List.Induction

/-!
# Numerals of a fixed width

`numeral b w n` are the last `w` digits of `n` in base `b`, most significant
digit first, letters in lower case; `readNumeral` reads digits of either case.
Bases up to 16.

* `readNumeral_numeral`: reading undoes writing below `b ^ w`.
* `readFixed_numeral`: the same in front of any text.
-/
namespace CodingAgent.Digits

/-- The value of a digit, in either case. -/
def digitValue (c : Char) : Option Nat :=
  if '0' ≤ c ∧ c ≤ '9' then some (c.toNat - '0'.toNat)
  else if 'a' ≤ c ∧ c ≤ 'f' then some (c.toNat - 'a'.toNat + 10)
  else if 'A' ≤ c ∧ c ≤ 'F' then some (c.toNat - 'A'.toNat + 10)
  else none

theorem digitValue_digitChar {d : Nat} (h : d < 16) : digitValue d.digitChar = some d := by
  have key : ∀ d : Fin 16, digitValue d.val.digitChar = some d.val := by decide
  exact key ⟨d, h⟩

/-- The last `w` digits of `n` in base `b`. -/
def numeral (b : Nat) : Nat → Nat → List Char
  | 0, _ => []
  | w + 1, n => numeral b w (n / b) ++ [(n % b).digitChar]

@[simp] theorem numeral_length (b w n : Nat) : (numeral b w n).length = w := by
  induction w generalizing n with
  | zero => rfl
  | succ w ih => rw [numeral, List.length_append, ih, List.length_singleton]

/-- Every character is a digit of the base. -/
theorem mem_numeral {b w n : Nat} (hb : 0 < b) {c : Char} (h : c ∈ numeral b w n) :
    ∃ d, d < b ∧ c = d.digitChar := by
  induction w generalizing n with
  | zero => cases h
  | succ w ih =>
    rw [numeral, List.mem_append, List.mem_singleton] at h
    rcases h with h | h
    · exact ih h
    · exact ⟨n % b, Nat.mod_lt n hb, h⟩

/-- One more digit. -/
def pushDigit (b n : Nat) (c : Char) : Option Nat :=
  (digitValue c).bind fun d => if d < b then some (b * n + d) else none

/-- The number a text of digits names; the empty text names zero. -/
def readNumeral (b : Nat) (cs : List Char) : Option Nat := cs.foldlM (pushDigit b) 0

theorem readNumeral_snoc (b : Nat) (cs : List Char) (c : Char) :
    readNumeral b (cs ++ [c]) = (readNumeral b cs).bind fun n => pushDigit b n c := by
  rw [readNumeral, List.foldlM_append]
  simp [readNumeral]

theorem readNumeral_numeral {b w n : Nat} (hb : 0 < b) (hb16 : b ≤ 16) (h : n < b ^ w) :
    readNumeral b (numeral b w n) = some n := by
  induction w generalizing n with
  | zero =>
    have : n = 0 := by simpa using h
    subst this
    rfl
  | succ w ih =>
    have hmod : n % b < b := Nat.mod_lt n hb
    have hdiv : n / b < b ^ w := by
      rw [Nat.div_lt_iff_lt_mul hb]
      rwa [Nat.pow_succ] at h
    rw [numeral, readNumeral_snoc, ih hdiv]
    show pushDigit b (n / b) (n % b).digitChar = some n
    rw [pushDigit, digitValue_digitChar (Nat.lt_of_lt_of_le hmod hb16)]
    show (if n % b < b then some (b * (n / b) + n % b) else none) = some n
    rw [if_pos hmod, Nat.div_add_mod]

/-- Reads `w` digits off the front of a text. -/
def readFixed (b w : Nat) (cs : List Char) : Option (Nat × List Char) :=
  if cs.length < w then none else (readNumeral b (cs.take w)).map fun n => (n, cs.drop w)

theorem readFixed_numeral {b w n : Nat} (hb : 0 < b) (hb16 : b ≤ 16) (h : n < b ^ w)
    (rest : List Char) : readFixed b w (numeral b w n ++ rest) = some (n, rest) := by
  have hlen : ¬(numeral b w n ++ rest).length < w := by simp
  rw [readFixed, if_neg hlen, List.take_append_of_le_length (by simp),
    List.take_of_length_le (by simp), readNumeral_numeral hb hb16 h,
    List.drop_append_of_le_length (by simp), List.drop_of_length_le (by simp)]
  rfl

/-- Digits name a number below the power of their count. -/
theorem readNumeral_lt {b : Nat} {cs : List Char} {n : Nat} (h : readNumeral b cs = some n) :
    n < b ^ cs.length := by
  induction cs using List.reverseRecOn generalizing n with
  | nil =>
    simp only [readNumeral, List.foldlM_nil, Option.pure_def, Option.some.injEq] at h
    subst h
    exact Nat.one_pos
  | append_singleton cs c ih =>
    rw [readNumeral_snoc, Option.bind_eq_some_iff] at h
    obtain ⟨high, hhigh, hpush⟩ := h
    rw [pushDigit, Option.bind_eq_some_iff] at hpush
    obtain ⟨digit, -, hdigit⟩ := hpush
    split at hdigit
    · next hlt =>
      obtain rfl := Option.some.inj hdigit
      rw [List.length_append, List.length_singleton, Nat.pow_succ]
      calc b * high + digit < b * high + b := by omega
        _ = (high + 1) * b := by rw [Nat.succ_mul, Nat.mul_comm]
        _ ≤ b ^ cs.length * b := Nat.mul_le_mul_right b (ih hhigh)
    · cases hdigit

theorem readFixed_lt {b w n : Nat} {cs rest : List Char} (h : readFixed b w cs = some (n, rest)) :
    n < b ^ w := by
  rw [readFixed] at h
  split at h
  · cases h
  · next hlen =>
    rw [Option.map_eq_some_iff] at h
    obtain ⟨m, hm, heq⟩ := h
    obtain rfl : m = n := congrArg Prod.fst heq
    have hlt := readNumeral_lt hm
    rwa [List.length_take, Nat.min_eq_left (by omega)] at hlt

/-- Reads one given character off the front of a text. -/
def expect (c : Char) : List Char → Option (List Char)
  | [] => none
  | d :: rest => if d = c then some rest else none

@[simp] theorem expect_cons (c : Char) (rest : List Char) : expect c (c :: rest) = some rest :=
  if_pos rfl

end CodingAgent.Digits
