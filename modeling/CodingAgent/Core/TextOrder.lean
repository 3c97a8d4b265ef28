import CodingAgent.Core.Civil
import CodingAgent.Core.Utf8
import CodingAgent.Core.Uuid

/-!
# The order of texts of a fixed width

Texts are ordered byte by byte, as `str` and SQLite's `BINARY` collation order
them. The texts of instants and of UUIDs are numerals of fixed widths with
separators at fixed places, the most significant number first, so their order
is that of the values.

* `numeral_lt_iff`: numerals of one width are ordered as their numbers are.
* `format_lt_iff`: so are the texts of instants up to the year 9999.
* `uuid_lt_iff`: and the hyphenated texts of UUIDs.
* `bytes_lt_iff`: the order of ASCII texts is that of their characters.
-/
namespace CodingAgent.TextOrder
open Digits

/-! ## Lists -/

section
variable {x y s t : List Char}

/-- Texts with first parts of one length. -/
theorem append_lt_append_iff (h : x.length = y.length) :
    x ++ s < y ++ t ↔ x < y ∨ x = y ∧ s < t := by
  induction x generalizing y with
  | nil =>
    obtain rfl := List.length_eq_zero_iff.1 h.symm
    simp
  | cons c x ih =>
    cases y with
    | nil => cases h
    | cons d y =>
      have hlength : x.length = y.length := Nat.succ.inj h
      rw [List.cons_append, List.cons_append, List.cons_lt_cons_iff, List.cons_lt_cons_iff,
        ih hlength, List.cons.injEq]
      constructor
      · rintro (hlt | ⟨rfl, hlt | ⟨rfl, hlt⟩⟩)
        · exact .inl (.inl hlt)
        · exact .inl (.inr ⟨rfl, hlt⟩)
        · exact .inr ⟨⟨rfl, rfl⟩, hlt⟩
      · rintro ((hlt | ⟨rfl, hlt⟩) | ⟨⟨rfl, rfl⟩, hlt⟩)
        · exact .inl hlt
        · exact .inr ⟨rfl, .inl hlt⟩
        · exact .inr ⟨rfl, .inr ⟨rfl, hlt⟩⟩

/-- The same with a separator between the parts. -/
theorem append_cons_lt_iff (c : Char) (h : x.length = y.length) :
    x ++ c :: s < y ++ c :: t ↔ x < y ∨ x = y ∧ s < t := by
  rw [append_lt_append_iff h, List.cons_lt_cons_iff]
  simp

end

/-! ## Numerals -/

theorem digitChar_lt_iff {d e : Nat} (hd : d < 16) (he : e < 16) :
    d.digitChar < e.digitChar ↔ d < e := by
  have key : ∀ d < 16, ∀ e < 16, d.digitChar < e.digitChar ↔ d < e := by decide
  exact key d hd e he

section
variable {b w n m : Nat}

theorem numeral_inj (hb : 0 < b) (hb16 : b ≤ 16) (hn : n < b ^ w) (hm : m < b ^ w) :
    numeral b w n = numeral b w m ↔ n = m := by
  refine ⟨fun h => ?_, fun h => by rw [h]⟩
  have hread := readNumeral_numeral hb hb16 hn
  rw [h, readNumeral_numeral hb hb16 hm] at hread
  exact (Option.some.inj hread).symm

/-- The last digit decides between numbers with the same other digits. -/
theorem lt_iff_div_mod (n m : Nat) (hb : 0 < b) :
    n < m ↔ n / b < m / b ∨ n / b = m / b ∧ n % b < m % b := by
  have hn := Nat.div_add_mod n b
  have hm := Nat.div_add_mod m b
  have hnlt := Nat.mod_lt n hb
  have hmlt := Nat.mod_lt m hb
  constructor
  · intro h
    rcases Nat.lt_or_eq_of_le (Nat.div_le_div_right (Nat.le_of_lt h)) with hlt | heq
    · exact .inl hlt
    · refine .inr ⟨heq, ?_⟩
      rw [heq] at hn
      omega
  · rintro (hlt | ⟨heq, hlt⟩)
    · have hstep : b * (n / b + 1) ≤ b * (m / b) := Nat.mul_le_mul_left b hlt
      rw [Nat.mul_add, Nat.mul_one] at hstep
      omega
    · rw [heq] at hn
      omega

theorem mixed_lt_iff (q q' : Nat) {r r' : Nat} (hr : r < b) (hr' : r' < b) :
    b * q + r < b * q' + r' ↔ q < q' ∨ q = q' ∧ r < r' := by
  have hb : 0 < b := Nat.lt_of_le_of_lt (Nat.zero_le r) hr
  rw [lt_iff_div_mod (b * q + r) (b * q' + r') hb, Nat.mul_add_div hb, Nat.mul_add_div hb,
    Nat.mul_add_mod, Nat.mul_add_mod, Nat.div_eq_of_lt hr, Nat.div_eq_of_lt hr',
    Nat.mod_eq_of_lt hr, Nat.mod_eq_of_lt hr', Nat.add_zero, Nat.add_zero]

/-- **Numerals of one width are ordered as their numbers are.** -/
theorem numeral_lt_iff (hb : 0 < b) (hb16 : b ≤ 16) (hn : n < b ^ w) (hm : m < b ^ w) :
    numeral b w n < numeral b w m ↔ n < m := by
  induction w generalizing n m with
  | zero =>
    have : n = m := by
      rw [Nat.pow_zero] at hn hm
      omega
    simp [this, numeral]
  | succ w ih =>
    have hdiv : ∀ {k : Nat}, k < b ^ (w + 1) → k / b < b ^ w := fun hk => by
      rw [Nat.div_lt_iff_lt_mul hb]
      rwa [Nat.pow_succ] at hk
    have hdigit : ∀ k : Nat, k % b < 16 := fun k => Nat.lt_of_lt_of_le (Nat.mod_lt k hb) hb16
    rw [numeral, numeral, append_lt_append_iff (by simp), ih (hdiv hn) (hdiv hm),
      numeral_inj hb hb16 (hdiv hn) (hdiv hm), List.cons_lt_cons_iff,
      digitChar_lt_iff (hdigit n) (hdigit m), lt_iff_div_mod n m hb]
    simp

end

/-- Decimal numerals. -/
theorem decimal_lt_iff {w n m : Nat} (hn : n < 10 ^ w) (hm : m < 10 ^ w) :
    numeral 10 w n < numeral 10 w m ↔ n < m :=
  numeral_lt_iff (by decide) (by decide) hn hm

theorem decimal_inj {w n m : Nat} (hn : n < 10 ^ w) (hm : m < 10 ^ w) :
    numeral 10 w n = numeral 10 w m ↔ n = m :=
  numeral_inj (by decide) (by decide) hn hm

/-! ## Instants -/

section
open Rfc3339

/-- The widths of the fields of a date. -/
structure Fits (date : Date) : Prop where
  year : date.year < 10 ^ 4
  month : date.month < 10 ^ 2
  day : date.day < 10 ^ 2

theorem fits_of_valid {date : Date} (h : date.Valid) (hyear : date.year < 10000) : Fits date where
  year := hyear
  month := by
    have := h.month_le
    omega
  day := by
    have := Nat.le_trans h.day_le (daysInMonth_le _ _)
    omega

theorem formatDate_lt_iff {a b : Date} (ha : Fits a) (hb : Fits b) :
    formatDate a < formatDate b ↔ a.year < b.year ∨
      a.year = b.year ∧ (a.month < b.month ∨ a.month = b.month ∧ a.day < b.day) := by
  rw [formatDate, formatDate, append_cons_lt_iff _ (by simp), append_cons_lt_iff _ (by simp),
    decimal_lt_iff ha.year hb.year, decimal_inj ha.year hb.year, decimal_lt_iff ha.month hb.month,
    decimal_inj ha.month hb.month, decimal_lt_iff ha.day hb.day]

theorem formatDate_inj {a b : Date} (ha : Fits a) (hb : Fits b) :
    formatDate a = formatDate b ↔ a = b := by
  refine ⟨fun h => ?_, fun h => by rw [h]⟩
  have hread := readDate_format ha.year ha.month ha.day []
  rw [h, readDate_format hb.year hb.month hb.day []] at hread
  exact (congrArg Prod.fst (Option.some.inj hread)).symm

/-- The second of the day. -/
def secondOfDay (hour minute second : Nat) : Nat := 3600 * hour + 60 * minute + second

theorem formatClock_lt_iff {h m s h' m' s' : Nat} (hh : h < 24) (hm : m < 60) (hs : s < 60)
    (hh' : h' < 24) (hm' : m' < 60) (hs' : s' < 60) :
    formatClock h m s < formatClock h' m' s' ↔ secondOfDay h m s < secondOfDay h' m' s' := by
  rw [formatClock, formatClock, append_cons_lt_iff _ (by simp), append_cons_lt_iff _ (by simp),
    decimal_lt_iff (by omega) (by omega), decimal_inj (by omega) (by omega),
    decimal_lt_iff (by omega) (by omega), decimal_inj (by omega) (by omega),
    decimal_lt_iff (by omega) (by omega), secondOfDay, secondOfDay]
  omega

theorem formatClock_inj {h m s h' m' s' : Nat} (hh : h < 24) (hm : m < 60) (hs : s < 60)
    (hh' : h' < 24) (hm' : m' < 60) (hs' : s' < 60) :
    formatClock h m s = formatClock h' m' s' ↔ secondOfDay h m s = secondOfDay h' m' s' := by
  rw [secondOfDay, secondOfDay]
  constructor
  · intro heq
    have hread := readClock_format (show h < 10 ^ 2 by omega) (show m < 10 ^ 2 by omega)
      (show s < 10 ^ 2 by omega) []
    rw [heq, readClock_format (by omega) (by omega) (by omega) []] at hread
    simp only [Option.some.injEq, Prod.mk.injEq, and_true] at hread
    omega
  · intro heq
    obtain ⟨rfl, rfl, rfl⟩ : h = h' ∧ m = m' ∧ s = s' := by omega
    rfl

theorem dateOf_inj {n m : Nat} : dateOf n = dateOf m ↔ n = m := by
  refine ⟨fun h => ?_, fun h => by rw [h]⟩
  rw [← dayOf_dateOf n, h, dayOf_dateOf]

/-- Dates are ordered as their days are. -/
theorem dateOf_lt_iff (n m : Nat) : (dateOf n).year < (dateOf m).year ∨
    (dateOf n).year = (dateOf m).year ∧ ((dateOf n).month < (dateOf m).month ∨
      (dateOf n).month = (dateOf m).month ∧ (dateOf n).day < (dateOf m).day) ↔ n < m := by
  have hn := Civil.dayOf_eq (dateOf_valid n)
  have hm := Civil.dayOf_eq (dateOf_valid m)
  rw [dayOf_dateOf] at hn hm
  have hlt := Civil.daysFromCivil_lt_iff (Civil.ofDate_valid.2 (dateOf_valid n))
    (Civil.ofDate_valid.2 (dateOf_valid m))
  rw [Civil.date_lt_iff] at hlt
  simp only [Civil.Date.ofDate] at hlt hn hm
  omega

/-- The parts of an instant. -/
theorem parts_bounds (t : Nat) : t % nanosPerDay / nanosPerHour < 24 ∧
    t % nanosPerHour / nanosPerMinute < 60 ∧ t % nanosPerMinute / nanosPerSecond < 60 ∧
    t % nanosPerSecond < 10 ^ 9 := by
  simp only [nanosPerDay, nanosPerHour, nanosPerMinute, nanosPerSecond]
  omega

/-- An instant by its day, its second of the day and its nanosecond. -/
theorem instant_parts (t : Nat) : t = nanosPerDay * (t / nanosPerDay) +
    (10 ^ 9 * secondOfDay (t % nanosPerDay / nanosPerHour) (t % nanosPerHour / nanosPerMinute)
      (t % nanosPerMinute / nanosPerSecond) + t % nanosPerSecond) := by
  rw [secondOfDay]
  simp only [nanosPerDay, nanosPerHour, nanosPerMinute, nanosPerSecond]
  omega

theorem secondOfDay_lt {h m s : Nat} (hh : h < 24) (hm : m < 60) (hs : s < 60) :
    secondOfDay h m s < 86400 := by
  rw [secondOfDay]
  omega

/-- Days, seconds of the day and nanoseconds are ordered as what they add up
to. -/
theorem parts_lt_iff (n n' : Nat) {s x s' x' : Nat} (hs : s < 86400) (hx : x < 10 ^ 9) (hs' : s' < 86400)
    (hx' : x' < 10 ^ 9) :
    nanosPerDay * n + (10 ^ 9 * s + x) < nanosPerDay * n' + (10 ^ 9 * s' + x') ↔
      n < n' ∨ n = n' ∧ (s < s' ∨ s = s' ∧ x < x') := by
  have hday : 10 ^ 9 * s + x < nanosPerDay := by
    rw [nanosPerDay]
    omega
  have hday' : 10 ^ 9 * s' + x' < nanosPerDay := by
    rw [nanosPerDay]
    omega
  rw [mixed_lt_iff n n' hday hday', mixed_lt_iff s s' hx hx']

/-- **The texts of instants are ordered as the instants are**, up to the year
9999. -/
theorem format_lt_iff {t u : Nat} (ht : t < nanosPerDay * 3652425)
    (hu : u < nanosPerDay * 3652425) : format t < format u ↔ t < u := by
  have hfits : ∀ {t : Nat}, t < nanosPerDay * 3652425 → Fits (dateOf (t / nanosPerDay)) :=
    fun ht => fits_of_valid (dateOf_valid _) (dateOf_year (Nat.div_lt_of_lt_mul ht))
  have hdate : (formatDate (dateOf (t / nanosPerDay))).length =
      (formatDate (dateOf (u / nanosPerDay))).length := by simp [formatDate]
  have hclock : ∀ h m s h' m' s', (formatClock h m s).length = (formatClock h' m' s').length := by
    intros
    simp [formatClock]
  obtain ⟨hh, hm, hs, hx⟩ := parts_bounds t
  obtain ⟨hh', hm', hs', hx'⟩ := parts_bounds u
  rw [format, format, append_cons_lt_iff _ hdate, append_cons_lt_iff _ (hclock ..),
    append_lt_append_iff (by simp), formatDate_lt_iff (hfits ht) (hfits hu),
    formatDate_inj (hfits ht) (hfits hu), dateOf_inj, dateOf_lt_iff,
    formatClock_lt_iff hh hm hs hh' hm' hs', formatClock_inj hh hm hs hh' hm' hs',
    decimal_lt_iff hx hx']
  have hparts := parts_lt_iff (t / nanosPerDay) (u / nanosPerDay) (secondOfDay_lt hh hm hs) hx
    (secondOfDay_lt hh' hm' hs') hx'
  rw [← instant_parts t, ← instant_parts u] at hparts
  simpa using hparts.symm

end

/-! ## UUIDs -/

theorem lex_assoc {a b c e f : Prop} :
    (a ∨ e ∧ b) ∨ (e ∧ f) ∧ c ↔ a ∨ e ∧ (b ∨ f ∧ c) := by
  rw [or_assoc, and_assoc, and_or_left]

/-- **The texts of UUIDs are ordered as their values are.** -/
theorem uuid_lt_iff {n m : Nat} (hn : n < 2 ^ 128) (hm : m < 2 ^ 128) :
    UuidText.format n < UuidText.format m ↔ n < m := by
  have hex : ∀ {w k l : Nat}, k < 16 ^ w → l < 16 ^ w →
      (numeral 16 w k < numeral 16 w l ↔ k < l) := fun hk hl =>
    numeral_lt_iff (by decide) (by decide) hk hl
  have inj : ∀ {w k l : Nat}, k < 16 ^ w → l < 16 ^ w →
      (numeral 16 w k = numeral 16 w l ↔ k = l) := fun hk hl =>
    numeral_inj (by decide) (by decide) hk hl
  have low : ∀ {k : Nat}, k < 2 ^ 128 → k / 2 ^ 96 < 16 ^ 8 := by omega
  have four : ∀ k : Nat, k % 2 ^ 16 < 16 ^ 4 := by omega
  have node : ∀ k : Nat, k % 2 ^ 48 < 16 ^ 12 := by omega
  -- a group and what is above it
  have group : ∀ k e : Nat, k / 2 ^ e = 2 ^ 16 * (k / 2 ^ (e + 16)) + k / 2 ^ e % 2 ^ 16 := by
    intro k e
    rw [Nat.pow_add, ← Nat.div_div_eq_div_mul, Nat.div_add_mod]
  have small : ∀ k e : Nat, k / 2 ^ e % 2 ^ 16 < 2 ^ 16 := fun k e => Nat.mod_lt _ (by decide)
  have value : n < m ↔ n / 2 ^ 48 < m / 2 ^ 48 ∨
      n / 2 ^ 48 = m / 2 ^ 48 ∧ n % 2 ^ 48 < m % 2 ^ 48 := lt_iff_div_mod n m (by decide)
  have equal : ∀ e, n / 2 ^ e = m / 2 ^ e ↔ n / 2 ^ (e + 16) = m / 2 ^ (e + 16) ∧
      n / 2 ^ e % 2 ^ 16 = m / 2 ^ e % 2 ^ 16 := by
    intro e
    have hn := group n e
    have hm := group m e
    have hsn := small n e
    have hsm := small m e
    omega
  have less : ∀ e, n / 2 ^ e < m / 2 ^ e ↔ n / 2 ^ (e + 16) < m / 2 ^ (e + 16) ∨
      n / 2 ^ (e + 16) = m / 2 ^ (e + 16) ∧ n / 2 ^ e % 2 ^ 16 < m / 2 ^ e % 2 ^ 16 := by
    intro e
    rw [group n e, group m e, mixed_lt_iff _ _ (small n e) (small m e), ← group n e, ← group m e]
  rw [UuidText.format, UuidText.format, append_cons_lt_iff _ (by simp),
    append_cons_lt_iff _ (by simp), append_cons_lt_iff _ (by simp), append_cons_lt_iff _ (by simp),
    hex (low hn) (low hm), inj (low hn) (low hm), hex (four _) (four _), inj (four _) (four _),
    hex (four _) (four _), inj (four _) (four _), hex (four _) (four _), inj (four _) (four _),
    hex (node n) (node m), value, less 48, less 64, less 80, equal 48, equal 64, equal 80]
  rw [lex_assoc, lex_assoc, lex_assoc]

/-! ## Bytes -/

/-- Every character is ASCII. -/
def IsAscii (text : List Char) : Prop := ∀ c ∈ text, c.toNat < 128

theorem encode_cons {c : Char} {text : List Char} (h : c.toNat < 128) :
    Utf8.encode (c :: text) = UInt8.ofNat c.toNat :: Utf8.encode text := by
  have hbyte : (UInt8.ofNat c.toNat).toNat = c.toNat := by
    rw [UInt8.toNat_ofNat', Nat.mod_eq_of_lt (by omega)]
  have hchar := Utf8.encode_char_of_ascii (b := UInt8.ofNat c.toNat) (by omega)
  rw [hbyte, Char.ofNat_toNat] at hchar
  rw [Utf8.encode, List.flatMap_cons, hchar]
  rfl

theorem ofNat_lt_iff {c d : Char} (hc : c.toNat < 128) (hd : d.toNat < 128) :
    UInt8.ofNat c.toNat < UInt8.ofNat d.toNat ↔ c < d := by
  rw [UInt8.lt_iff_toNat_lt, UInt8.toNat_ofNat', UInt8.toNat_ofNat', Nat.mod_eq_of_lt (by omega),
    Nat.mod_eq_of_lt (by omega)]
  exact Iff.rfl

/-- **The order of ASCII texts by bytes and by characters.** -/
theorem bytes_lt_iff {x y : List Char} (hx : IsAscii x) (hy : IsAscii y) :
    Utf8.encode x < Utf8.encode y ↔ x < y := by
  induction x generalizing y with
  | nil =>
    cases y with
    | nil => exact iff_of_false (List.lt_irrefl _) (List.lt_irrefl _)
    | cons d y =>
      rw [encode_cons (hy d List.mem_cons_self)]
      exact iff_of_true (List.nil_lt_cons _ _) (List.nil_lt_cons _ _)
  | cons c x ih =>
    have hc := hx c List.mem_cons_self
    cases y with
    | nil =>
      rw [encode_cons hc]
      exact iff_of_false (List.not_lt_nil _) (List.not_lt_nil _)
    | cons d y =>
      have hd := hy d List.mem_cons_self
      have hrest := ih (fun e he => hx e (List.mem_cons_of_mem c he))
        (fun e he => hy e (List.mem_cons_of_mem d he))
      have heq : UInt8.ofNat c.toNat = UInt8.ofNat d.toNat ↔ c = d := by
        refine ⟨fun h => ?_, fun h => by rw [h]⟩
        have hnot : ¬c < d ∧ ¬d < c := by
          rw [← ofNat_lt_iff hc hd, ← ofNat_lt_iff hd hc, h]
          exact ⟨UInt8.lt_irrefl _, UInt8.lt_irrefl _⟩
        exact Char.le_antisymm (Char.not_lt.1 hnot.2) (Char.not_lt.1 hnot.1)
      rw [encode_cons hc, encode_cons hd, List.cons_lt_cons_iff, List.cons_lt_cons_iff,
        ofNat_lt_iff hc hd, heq, hrest]

end CodingAgent.TextOrder
