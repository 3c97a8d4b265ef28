import CodingAgent.Core.Civil
import CodingAgent.L1Domain.Serde
import Mathlib.Data.Nat.Log

/-!
# The clock (`coding-agent-app/src/task_manager.rs:1116-1153`)

`current_timestamp` writes the time of the system's clock as an RFC 3339 text
and reads it back. Its arithmetic is that of `i64`; an operation whose result is
not one has none here.

* `civilFromDays_spec`: every day has a date, and no operation overflows.
* `civil_from_days`: the dates are those of the Gregorian calendar, in its
  order, and the timestamp is the time of the clock up to the year 9999.
-/
namespace CodingAgent.L4.App.Clock
open CodingAgent.L1.Domain CodingAgent.Civil
open Rfc3339 (nanosPerSecond nanosPerMinute nanosPerHour nanosPerDay)

/-! ## 64-bit arithmetic -/

def IsI64 (n : Int) : Prop := -2 ^ 63 ≤ n ∧ n < 2 ^ 63

instance (n : Int) : Decidable (IsI64 n) := inferInstanceAs (Decidable (_ ∧ _))

/-- The result of an operation, where it does not overflow. -/
def checked (n : Int) : Option Int := if IsI64 n then some n else none

def add (a b : Int) : Option Int := checked (a + b)
def sub (a b : Int) : Option Int := checked (a - b)
def mul (a b : Int) : Option Int := checked (a * b)
/-- The quotient rounded towards zero. -/
def div (a b : Int) : Option Int := if b = 0 then none else checked (a.tdiv b)

/-- An operation that does not overflow goes on with its result. -/
theorem bind_of_eq {α β : Type} {x : Option α} {a : α} {f : α → Option β} (h : x = some a) :
    (x >>= f) = f a := by
  rw [h]
  rfl

section
variable {a b : Int}

theorem add_eq (h : IsI64 (a + b)) : add a b = some (a + b) := if_pos h

theorem sub_eq (h : IsI64 (a - b)) : sub a b = some (a - b) := if_pos h

theorem mul_eq (h : IsI64 (a * b)) : mul a b = some (a * b) := if_pos h

/-- Of a number that is not negative the quotient is rounded down. -/
theorem div_eq (ha : 0 ≤ a) (hb : 0 < b) (h : IsI64 a) : div a b = some (a / b) := by
  have hquotient : 0 ≤ a / b := Int.ediv_nonneg ha (Int.le_of_lt hb)
  have hle : a / b ≤ a := Int.ediv_le_self b ha
  rw [div, if_neg (Int.ne_of_gt hb), Int.tdiv_eq_ediv_of_nonneg ha]
  unfold IsI64 at h
  exact if_pos ⟨by omega, by omega⟩

end

/-! ## Days and dates -/

/-- mirrors crates/coding-agent-app/src/task_manager.rs:1138-1142 -/
def eraOf (days : Int) : Option Int :=
  if days ≥ 0 then div days 146097 else do div (← sub days 146096) 146097

/-- mirrors crates/coding-agent-app/src/task_manager.rs:1144-1145 -/
def yearOfEra (dayOfEra : Int) : Option Int := do
  div (← sub (← add (← sub dayOfEra (← div dayOfEra 1460)) (← div dayOfEra 36524))
    (← div dayOfEra 146096)) 365

/-- mirrors crates/coding-agent-app/src/task_manager.rs:1147 -/
def dayOfYear (dayOfEra yearOfEra : Int) : Option Int := do
  sub dayOfEra (← sub (← add (← mul 365 yearOfEra) (← div yearOfEra 4)) (← div yearOfEra 100))

/-- mirrors crates/coding-agent-app/src/task_manager.rs:1148 -/
def monthPrime (dayOfYear : Int) : Option Int := do div (← add (← mul 5 dayOfYear) 2) 153

/-- mirrors crates/coding-agent-app/src/task_manager.rs:1149 -/
def dayOfMonth (dayOfYear monthPrime : Int) : Option Int := do
  add (← sub dayOfYear (← div (← add (← mul 153 monthPrime) 2) 5)) 1

/-- mirrors crates/coding-agent-app/src/task_manager.rs:1136-1153 -/
def civilFromDays (daysSinceEpoch : Int) : Option (Int × Int × Int) := do
  let days ← add daysSinceEpoch 719468
  let era ← eraOf days
  let dayOfEra ← sub days (← mul era 146097)
  let yearOfEra ← yearOfEra dayOfEra
  let year ← add yearOfEra (← mul era 400)
  let dayOfYear ← dayOfYear dayOfEra yearOfEra
  let monthPrime ← monthPrime dayOfYear
  let day ← dayOfMonth dayOfYear monthPrime
  let month ← add monthPrime (if monthPrime < 10 then 3 else -9)
  let year ← add year (if month ≤ 2 then 1 else 0)
  some (year, month, day)

example : civilFromDays 19782 = some (2024, 2, 29) := by decide

/-- The era of a day, before the first one too. -/
theorem eraOf_eq {days : Int} (hlow : -2 ^ 63 + 146096 ≤ days) (hhigh : days < 2 ^ 63) :
    eraOf days = some (days / 146097) := by
  unfold eraOf
  split
  · exact div_eq ‹_› (by decide) ⟨by omega, hhigh⟩
  · rename_i hneg
    have hquotient : (days - 146096).tdiv 146097 = days / 146097 := by
      have hopposite : days - 146096 = -(146096 - days) := by omega
      rw [hopposite, Int.neg_tdiv, Int.tdiv_eq_ediv_of_nonneg (by omega)]
      omega
    rw [sub_eq ⟨by omega, by omega⟩]
    show div (days - 146096) 146097 = _
    rw [div, if_neg (by decide), hquotient]
    exact if_pos ⟨by omega, by omega⟩

/-- The quotients by which the source finds the year of an era are off by
less than a year. -/
theorem yearOfEra_quotient {day century four year dayOfYear leaps centuries eras : Int}
    (hcenturies : centuries - eras = century)
    (hday : day = 36524 * century + 1461 * four + 365 * year + dayOfYear)
    (hle : leaps ≤ 25 * century + four + dayOfYear)
    (hlt : 25 * century + four + dayOfYear < leaps + 365) :
    (day - leaps + centuries - eras) / 365 = 100 * century + 4 * four + year := by
  have hsum : day - leaps + centuries - eras =
      365 * (100 * century + 4 * four + year) + (25 * century + four + dayOfYear - leaps) := by
    omega
  rw [hsum]
  omega

/-- Numbers of the size of an era. -/
theorem isI64_small {n : Int} (hlow : -1000000 ≤ n) (hhigh : n ≤ 1000000) : IsI64 n := by
  unfold IsI64
  omega

theorem yearOfEra_eq {dayOfEra : Nat} (h : dayOfEra < 146097) :
    yearOfEra dayOfEra =
      some (((dayOfEra : Int) - dayOfEra / 1460 + dayOfEra / 36524 - dayOfEra / 146096) / 365) := by
  have hsmall : IsI64 dayOfEra := isI64_small (by omega) (by omega)
  have hleaps : IsI64 ((dayOfEra : Int) - dayOfEra / 1460) := isI64_small (by omega) (by omega)
  have hcenturies : IsI64 ((dayOfEra : Int) - dayOfEra / 1460 + dayOfEra / 36524) :=
    isI64_small (by omega) (by omega)
  have heras : IsI64 ((dayOfEra : Int) - dayOfEra / 1460 + dayOfEra / 36524 - dayOfEra / 146096) :=
    isI64_small (by omega) (by omega)
  have hpos : 0 ≤ (dayOfEra : Int) - dayOfEra / 1460 + dayOfEra / 36524 - dayOfEra / 146096 := by
    omega
  rw [yearOfEra, bind_of_eq (div_eq (by omega) (by omega) hsmall), bind_of_eq (sub_eq hleaps),
    bind_of_eq (div_eq (by omega) (by omega) hsmall), bind_of_eq (add_eq hcenturies),
    bind_of_eq (div_eq (by omega) (by omega) hsmall), bind_of_eq (sub_eq heras),
    div_eq hpos (by omega) heras]

/-- The year of an era that a day is in. -/
theorem yearOfEra_parts {dayOfEra : Nat} (h : dayOfEra < 146097) :
    ∃ century four year dayOfYear : Nat,
      yearOfEra dayOfEra = some (100 * century + 4 * four + year : Int) ∧ century ≤ 3 ∧ four ≤ 24 ∧ year ≤ 3 ∧
      dayOfEra = 36524 * century + 1461 * four + 365 * year + dayOfYear ∧ dayOfYear ≤ 365 ∧
      (dayOfYear = 365 → year = 3 ∧ (four = 24 → century = 3)) := by
  obtain ⟨century, four, year, -, hc, hf, hy, hday, hle, hleap⟩ := Rfc3339.yearOf_spec h
  generalize (Rfc3339.yearOf dayOfEra).2 = dayOfYear at hday hle hleap
  refine ⟨century, four, year, dayOfYear, ?_, hc, hf, hy, hday, hle, hleap⟩
  have hsum : (dayOfEra : Int) = 36524 * century + 1461 * four + 365 * year + dayOfYear := by
    omega
  have hcenturies : (dayOfEra : Int) / 36524 - dayOfEra / 146096 = century := by
    rcases Nat.lt_or_ge dayOfEra 146096 with hlt | hge
    · have heras : (dayOfEra : Int) / 146096 = 0 := by omega
      have hnext : dayOfEra < 36524 * century + 36524 := by omega
      omega
    · have hlast : dayOfEra = 146096 := by omega
      omega
  have hfew : (dayOfEra : Int) / 1460 ≤ 25 * century + four + dayOfYear := by omega
  have hmany : 25 * century + four + dayOfYear < (dayOfEra : Int) / 1460 + 365 := by omega
  rw [yearOfEra_eq h, yearOfEra_quotient hcenturies hsum hfew hmany]

/-- The leap days of an era before a year of it. -/
theorem leaps_eq (century : Nat) {four year : Nat} (hf : four ≤ 24) (hy : year ≤ 3) :
    (100 * century + 4 * four + year : Int) / 4 = 25 * century + four ∧
      (100 * century + 4 * four + year : Int) / 100 = century := by
  omega

theorem dayOfYear_eq {dayOfEra century four year day : Nat} (hc : century ≤ 3) (hf : four ≤ 24)
    (hy : year ≤ 3) (hd : day ≤ 365)
    (hday : dayOfEra = 36524 * century + 1461 * four + 365 * year + day) :
    dayOfYear dayOfEra (100 * century + 4 * four + year) = some (day : Int) := by
  obtain ⟨hleaps, hcenturies⟩ := leaps_eq century hf hy
  have hyear : IsI64 (100 * century + 4 * four + year : Int) := isI64_small (by omega) (by omega)
  have hyears : IsI64 (365 * (100 * century + 4 * four + year) : Int) := isI64_small (by omega) (by omega)
  have hdays : IsI64 (365 * (100 * century + 4 * four + year) + (25 * century + four) : Int) :=
    isI64_small (by omega) (by omega)
  have hless :
      IsI64 (365 * (100 * century + 4 * four + year) + (25 * century + four) - century : Int) :=
    isI64_small (by omega) (by omega)
  have hrest : (dayOfEra : Int) -
      (365 * (100 * century + 4 * four + year) + (25 * century + four) - century) = day := by
    omega
  have hsmall : IsI64 ((dayOfEra : Int) -
      (365 * (100 * century + 4 * four + year) + (25 * century + four) - century)) := by
    rw [hrest]
    exact isI64_small (by omega) (by omega)
  rw [dayOfYear, bind_of_eq (mul_eq hyears), bind_of_eq (div_eq (by omega) (by omega) hyear),
    hleaps, bind_of_eq (add_eq hdays), bind_of_eq (div_eq (by omega) (by omega) hyear), hcenturies,
    bind_of_eq (sub_eq hless), sub_eq hsmall, hrest]

theorem monthPrime_eq {day : Nat} (h : day ≤ 365) :
    monthPrime day = some (Rfc3339.monthOf day : Int) := by
  have hfive : IsI64 (5 * (day : Int)) := isI64_small (by omega) (by omega)
  have htwo : IsI64 (5 * (day : Int) + 2) := isI64_small (by omega) (by omega)
  have hmonth : (5 * (day : Int) + 2) / 153 = Rfc3339.monthOf day := by
    rw [Rfc3339.monthOf]
    omega
  rw [monthPrime, bind_of_eq (mul_eq hfive), bind_of_eq (add_eq htwo),
    div_eq (by omega) (by omega) htwo, hmonth]

theorem dayOfMonth_eq {day month : Nat} (hday : day ≤ 365) (hmonth : month ≤ 11) :
    dayOfMonth day month = some ((day : Int) - Rfc3339.monthStart month + 1) := by
  have hmonths : IsI64 (153 * (month : Int)) := isI64_small (by omega) (by omega)
  have htwo : IsI64 (153 * (month : Int) + 2) := isI64_small (by omega) (by omega)
  have hstart : (153 * (month : Int) + 2) / 5 = Rfc3339.monthStart month := by
    rw [Rfc3339.monthStart]
    omega
  have hle : Rfc3339.monthStart month ≤ 400 := by
    rw [Rfc3339.monthStart]
    omega
  have hrest : IsI64 ((day : Int) - Rfc3339.monthStart month) := isI64_small (by omega) (by omega)
  have hone : IsI64 ((day : Int) - Rfc3339.monthStart month + 1) := isI64_small (by omega) (by omega)
  rw [dayOfMonth, bind_of_eq (mul_eq hmonths), bind_of_eq (add_eq htwo),
    bind_of_eq (div_eq (by omega) (by omega) htwo), hstart, bind_of_eq (sub_eq hrest), add_eq hone]

/-- A day in a year that begins in March has a date. -/
theorem marchDate_day_valid (era : Int) {century four year day : Nat} (hf : four ≤ 24)
    (hle : day ≤ 365)
    (hleap : day = 365 → year = 3 ∧ (four = 24 → century = 3)) :
    (marchDate (100 * century + 4 * four + year + era * 400) (Rfc3339.monthOf day)
      (day - Rfc3339.monthStart (Rfc3339.monthOf day) + 1)).Valid := by
  obtain ⟨hstart, hmonth, hend⟩ := Rfc3339.monthOf_spec hle
  refine marchDate_valid hmonth (by omega) (by omega) (fun hlast hday => ?_) fun hlast => ?_
  · have hfirst : Rfc3339.monthStart (Rfc3339.monthOf day) = 337 := by rw [hlast]; rfl
    obtain ⟨hthree, hfour⟩ := hleap (by omega)
    clear hday hfirst hstart hend hlast hle hleap
    simp only [isLeap, Bool.and_eq_true, Bool.or_eq_true, decide_eq_true_eq]
    omega
  · have hfirst : Rfc3339.monthStart (Rfc3339.monthOf day) = 337 := by rw [hlast]; rfl
    omega

/-- Its day counted from 1970-01-01. -/
theorem marchDate_day (era : Int) {century four year day : Nat} (hc : century ≤ 3)
    (hf : four ≤ 24) (hy : year ≤ 3) (hle : day ≤ 365) :
    daysFromCivil (marchDate (100 * century + 4 * four + year + era * 400) (Rfc3339.monthOf day)
        (day - Rfc3339.monthStart (Rfc3339.monthOf day) + 1)) =
      146097 * era + (36524 * century + 1461 * four + 365 * year + day) - 719468 := by
  obtain ⟨-, hmonth, -⟩ := Rfc3339.monthOf_spec hle
  have hleaps : (100 * century + 4 * four + year + era * 400 : Int) / 4 -
      (100 * century + 4 * four + year + era * 400) / 100 +
      (100 * century + 4 * four + year + era * 400) / 400 =
      24 * century + four + 97 * era := by omega
  rw [daysFromCivil_march hmonth, hleaps]
  clear hleaps
  omega

/-- The month of the source and the one of `marchDate`. -/
theorem month_steps {year : Int} {month : Nat} (h : month ≤ 11) (hlow : -2 ^ 60 ≤ year)
    (hhigh : year ≤ 2 ^ 60) (day : Int) :
    (do
      let month ← add (month : Int) (if (month : Int) < 10 then 3 else -9)
      let year ← add year (if month ≤ 2 then 1 else 0)
      some (year, month, day)) =
      some ((marchDate year month day).year, (marchDate year month day).month, day) := by
  by_cases hmonth : month < 10
  · have hcast : (month : Int) < 10 := by omega
    have hlate : ¬(month : Int) + 3 ≤ 2 := by omega
    rw [if_pos hcast, bind_of_eq (add_eq (isI64_small (by omega) (by omega))), if_neg hlate,
      bind_of_eq (add_eq ⟨by omega, by omega⟩)]
    simp only [marchDate, if_pos hmonth, Int.add_zero]
  · have hcast : ¬(month : Int) < 10 := by omega
    have hearly : (month : Int) + -9 ≤ 2 := by omega
    rw [if_neg hcast, bind_of_eq (add_eq (isI64_small (by omega) (by omega))), if_pos hearly,
      bind_of_eq (add_eq ⟨by omega, by omega⟩)]
    simp only [marchDate, if_neg hmonth, Int.sub_eq_add_neg]

/-- **Every day has its date.** From the first day of `i64` on, up to where the
first sum overflows, no operation does. -/
theorem civilFromDays_spec {n : Int} (hlow : -2 ^ 63 ≤ n) (hhigh : n + 719468 < 2 ^ 63) :
    ∃ date : Date, civilFromDays n = some (date.year, date.month, date.day) ∧ date.Valid ∧
      daysFromCivil date = n := by
  obtain ⟨dayOfEra, hday⟩ : ∃ dayOfEra : Nat,
      n + 719468 = 146097 * ((n + 719468) / 146097) + dayOfEra :=
    ⟨((n + 719468) % 146097).toNat, by omega⟩
  have hlt : dayOfEra < 146097 := by omega
  have hera := eraOf_eq (show -2 ^ 63 + 146096 ≤ n + 719468 by omega) hhigh
  have hlowera : -2 ^ 50 ≤ (n + 719468) / 146097 := by omega
  have hhighera : (n + 719468) / 146097 ≤ 2 ^ 50 := by omega
  generalize (n + 719468) / 146097 = era at hday hera hlowera hhighera
  have hdayOfEra : n + 719468 - era * 146097 = dayOfEra := by omega
  obtain ⟨century, four, year, day, hyear, hc, hf, hy, hdays, hle, hleap⟩ := yearOfEra_parts hlt
  have hmonth : Rfc3339.monthOf day ≤ 11 := (Rfc3339.monthOf_spec hle).2.1
  have hcount := marchDate_day era hc hf hy hle
  refine ⟨_, ?_, marchDate_day_valid era hf hle hleap, ?_⟩
  · have hsub : IsI64 (n + 719468 - era * 146097) := by
      rw [hdayOfEra]
      exact isI64_small (by omega) (by omega)
    rw [civilFromDays, bind_of_eq (add_eq ⟨by omega, hhigh⟩), bind_of_eq hera,
      bind_of_eq (mul_eq ⟨by omega, by omega⟩), bind_of_eq (sub_eq hsub), hdayOfEra,
      bind_of_eq hyear, bind_of_eq (mul_eq ⟨by omega, by omega⟩),
      bind_of_eq (add_eq ⟨by omega, by omega⟩), bind_of_eq (dayOfYear_eq hc hf hy hle hdays),
      bind_of_eq (monthPrime_eq hle), bind_of_eq (dayOfMonth_eq hle hmonth)]
    exact month_steps hmonth (by omega) (by omega) _
  · rw [hcount]
    omega

/-- Later days have later dates. -/
theorem civilFromDays_lt {n m : Int} {a b : Date} (hlow : -2 ^ 63 ≤ n)
    (hhigh : m + 719468 < 2 ^ 63) (h : n < m)
    (ha : civilFromDays n = some (a.year, a.month, a.day))
    (hb : civilFromDays m = some (b.year, b.month, b.day)) : a < b := by
  obtain ⟨a', ha', hvalid, hn⟩ := civilFromDays_spec hlow (show n + 719468 < 2 ^ 63 by omega)
  obtain ⟨b', hb', hvalid', hm⟩ := civilFromDays_spec (show -2 ^ 63 ≤ m by omega) hhigh
  have haeq : a = a' := by
    rw [ha, Option.some.injEq, Prod.mk.injEq, Prod.mk.injEq] at ha'
    exact Date.ext ha'.1 ha'.2.1 ha'.2.2
  have hbeq : b = b' := by
    rw [hb, Option.some.injEq, Prod.mk.injEq, Prod.mk.injEq] at hb'
    exact Date.ext hb'.1 hb'.2.1 hb'.2.2
  rw [haeq, hbeq]
  apply (daysFromCivil_lt_iff hvalid hvalid').1
  omega

/-! ## The current timestamp -/

/-- `std::time::Duration` -/
structure Duration where
  secs : Nat
  subsecNanos : Nat
  secs_lt : secs < 2 ^ 64
  subsecNanos_lt : subsecNanos < nanosPerSecond

def Duration.nanos (duration : Duration) : Int :=
  nanosPerSecond * duration.secs + duration.subsecNanos

/-- The remainder, with the sign of the dividend. -/
def rem (a b : Int) : Option Int := if b = 0 then none else checked (a.tmod b)

/-- `{:0width$}` of a number that is not negative. -/
def padded (width n : Nat) : List Char := Digits.numeral 10 (max width (Nat.log 10 n + 1)) n

/-- `{:0width$}` -/
def paddedInt (width : Nat) (n : Int) : List Char :=
  if n < 0 then '-' :: padded (width - 1) n.natAbs else padded width n.toNat

/-- The text of `format!`. -/
def clockText (year month day hour minute second : Int) (subsecNanos : Nat) : List Char :=
  paddedInt 4 year ++ '-' :: (paddedInt 2 month ++ '-' :: (paddedInt 2 day ++ 'T' ::
    (paddedInt 2 hour ++ ':' :: (paddedInt 2 minute ++ ':' :: (paddedInt 2 second ++ '.' ::
      (padded 9 subsecNanos ++ ['Z']))))))

/-- The clock is before the Unix epoch, or the time since then.
mirrors crates/coding-agent-app/src/task_manager.rs:1116-1134 -/
def currentTimestamp (clock : Option Duration) : Option (Except String UtcTimestamp) :=
  match clock with
  | none => some (.error "system clock predates the Unix epoch")
  | some duration =>
    let seconds : Int := duration.secs
    if ¬IsI64 seconds then some (.error "system clock exceeds supported timestamp")
    else do
      let days := seconds / 86400
      let secondsOfDay := seconds % 86400
      let (year, month, day) ← civilFromDays days
      let hour ← div secondsOfDay 3600
      let minute ← div (← rem secondsOfDay 3600) 60
      let second ← rem secondsOfDay 60
      let value := clockText year month day hour minute second duration.subsecNanos
      some ((UtcTimestamp.parseRfc3339 (String.ofList value)).mapError fun _ =>
        "system clock produced an invalid UTC timestamp")

section
variable {n width : Nat}

/-- A number that is not longer than the width is written with its width. -/
theorem padded_eq (h : n < 10 ^ width) (hwidth : 0 < width) :
    padded width n = Digits.numeral 10 width n := by
  have hlog : Nat.log 10 n < width := Nat.log_lt_of_lt_pow' (by omega) h
  rw [padded, Nat.max_eq_left hlog]

theorem paddedInt_natCast (h : n < 10 ^ width) (hwidth : 0 < width) :
    paddedInt width n = Digits.numeral 10 width n := by
  rw [paddedInt, if_neg (by omega), Int.toNat_natCast, padded_eq h hwidth]

theorem rem_eq {a b : Int} (ha : 0 ≤ a) (hb : 0 < b) (h : IsI64 b) : rem a b = some (a % b) := by
  have hlow : 0 ≤ a % b := Int.emod_nonneg a (Int.ne_of_gt hb)
  have hhigh : a % b < b := Int.emod_lt_of_pos a hb
  rw [rem, if_neg (Int.ne_of_gt hb), Int.tmod_eq_emod_of_nonneg ha]
  unfold IsI64 at h
  exact if_pos ⟨by omega, by omega⟩

end

/-- The text of a time up to the year 9999 is read. -/
theorem parse_clockText {date : Rfc3339.Date} {hour minute second nanos : Nat}
    (hdate : date.Valid) (hyear : date.year < 10000) (hhour : hour < 24) (hminute : minute < 60)
    (hsecond : second < 60) (hnanos : nanos < nanosPerSecond) :
    Rfc3339.parse (clockText date.year date.month date.day hour minute second nanos) =
      some ((nanosPerDay * Rfc3339.dayOf date + nanosPerHour * hour + nanosPerMinute * minute +
        nanosPerSecond * second + nanos : Nat) : Int) := by
  have hmonth : date.month < 10 ^ 2 := by
    have := hdate.month_le
    omega
  have hday : date.day < 10 ^ 2 := by
    have := Nat.le_trans hdate.day_le (Rfc3339.daysInMonth_le _ _)
    omega
  have htext : clockText date.year date.month date.day hour minute second nanos =
      Rfc3339.formatDate date ++ 'T' :: (Rfc3339.formatClock hour minute second ++ '.' ::
        (Digits.numeral 10 9 nanos ++ ['Z'])) := by
    simp only [clockText, Rfc3339.formatDate, Rfc3339.formatClock, List.append_assoc,
      List.cons_append, paddedInt_natCast (show date.year < 10 ^ 4 from hyear) (by decide),
      paddedInt_natCast hmonth (by decide), paddedInt_natCast hday (by decide),
      paddedInt_natCast (show hour < 10 ^ 2 by omega) (by decide),
      paddedInt_natCast (show minute < 10 ^ 2 by omega) (by decide),
      paddedInt_natCast (show second < 10 ^ 2 by omega) (by decide),
      padded_eq (show nanos < 10 ^ 9 from hnanos) (by decide)]
  rw [htext, ← Rfc3339.instant_utc hdate hhour hminute hsecond]
  exact Rfc3339.parse_of_parts (Rfc3339.readDate_format hyear hmonth hday _) (by decide)
    (Rfc3339.readClock_format (by omega) (by omega) (by omega) _)
    (Rfc3339.readFraction_numeral hnanos []) rfl

/-- A year of five digits or more is not. -/
theorem parse_clockText_none {year : Int} (h : 10000 ≤ year) (month day hour minute second : Int)
    (nanos : Nat) :
    Rfc3339.parse (clockText year month day hour minute second nanos) = none := by
  obtain ⟨y, rfl⟩ : ∃ y : Nat, year = y := ⟨year.toNat, by omega⟩
  have hlog : 4 ≤ Nat.log 10 y := (Nat.le_log_iff_pow_le (by decide) (by omega)).2 (by omega)
  have hpadded : paddedInt 4 y = Digits.numeral 10 (Nat.log 10 y + 1) y := by
    rw [paddedInt, if_neg (by omega), Int.toNat_natCast, padded, Nat.max_eq_right (by omega)]
  -- the character after four digits is a digit
  obtain ⟨c, rest, hdrop, hc⟩ : ∃ c rest,
      (clockText y month day hour minute second nanos).drop 4 = c :: rest ∧ c ≠ '-' := by
    have hlength : 4 < (paddedInt 4 y).length := by
      rw [hpadded, Digits.numeral_length]
      omega
    have hmem : (paddedInt 4 y)[4] ∈ paddedInt 4 y := List.getElem_mem hlength
    have hne : (paddedInt 4 y)[4] ≠ '-' := by
      generalize (paddedInt 4 y)[4] = c at hmem
      rw [hpadded] at hmem
      obtain ⟨d, hd, rfl⟩ := Digits.mem_numeral (by decide) hmem
      have key : ∀ d < 10, d.digitChar ≠ '-' := by decide
      exact key d hd
    have hdrop : ∃ rest, (clockText y month day hour minute second nanos).drop 4 =
        (paddedInt 4 y)[4] :: rest := by
      rw [clockText, List.drop_append_of_le_length (Nat.le_of_lt hlength),
        List.drop_eq_getElem_cons hlength, List.cons_append]
      exact ⟨_, rfl⟩
    obtain ⟨rest, hdrop⟩ := hdrop
    exact ⟨_, rest, hdrop, hne⟩
  have hdate : Rfc3339.readDate (clockText y month day hour minute second nanos) = none := by
    generalize clockText y month day hour minute second nanos = text at hdrop
    rw [Rfc3339.readDate]
    cases hread : Digits.readFixed 10 4 text with
    | none => rfl
    | some read =>
      obtain ⟨value, left⟩ := read
      have hleft : left = c :: rest := by
        rw [Digits.readFixed] at hread
        split at hread
        · cases hread
        · obtain ⟨m, -, heq⟩ := Option.map_eq_some_iff.1 hread
          rw [← hdrop]
          exact (congrArg Prod.snd heq).symm
      have hexpect : Digits.expect '-' left = none := by
        rw [hleft]
        exact if_neg hc
      simp only [Option.bind_eq_bind, Option.bind_some, hexpect, Option.bind_none]
  simp only [Rfc3339.parse, Rfc3339.readFields, hdate, Option.bind_eq_bind, Option.bind_none]

/-! ## The calendar and the clock -/

/-- The last day of the year 9999. -/
theorem year_le_iff {date : Date} (h : date.Valid) :
    date.year ≤ 9999 ↔ daysFromCivil date < 2932897 := by
  have hnext : (⟨10000, 1, 1⟩ : Date).Valid := ⟨by decide, by decide, by decide, by decide⟩
  have hday : daysFromCivil ⟨10000, 1, 1⟩ = 2932897 := by decide
  rw [← hday, daysFromCivil_lt_iff h hnext, date_lt_iff]
  have := h.month_pos
  have := h.day_pos
  simp only
  omega

/-- A date from 1970 on has a year that is not negative. -/
theorem year_nonneg {date : Date} (h : date.Valid) (hday : 0 ≤ daysFromCivil date) :
    0 ≤ date.year := by
  have hzero : (⟨0, 1, 1⟩ : Date).Valid := ⟨by decide, by decide, by decide, by decide⟩
  have hcount : daysFromCivil ⟨0, 1, 1⟩ = -719528 := by decide
  by_cases hyear : 0 ≤ date.year
  · exact hyear
  · have hlt := daysFromCivil_lt h hzero (.inl (by show date.year < 0; omega))
    omega

/-- What `currentTimestamp` reads back. -/
theorem currentTimestamp_eq (duration : Duration) {date : Date} (hvalid : date.Valid)
    (hcount : daysFromCivil date = (duration.secs : Int) / 86400) (hsecs : duration.secs < 2 ^ 63) :
    currentTimestamp (some duration) =
      some ((UtcTimestamp.parseRfc3339 (String.ofList (clockText date.year date.month date.day
        ((duration.secs % 86400 / 3600 : Nat) : Int)
        ((duration.secs % 86400 % 3600 / 60 : Nat) : Int)
        ((duration.secs % 86400 % 60 : Nat) : Int) duration.subsecNanos))).mapError fun _ =>
          "system clock produced an invalid UTC timestamp") := by
  have hlow : -2 ^ 63 ≤ (duration.secs : Int) / 86400 := by omega
  have hhigh : (duration.secs : Int) / 86400 + 719468 < 2 ^ 63 := by omega
  obtain ⟨found, hfound, hvalid', hcount'⟩ := civilFromDays_spec hlow hhigh
  obtain rfl : date = found := daysFromCivil_inj hvalid hvalid' (hcount.trans hcount'.symm)
  have hseconds : IsI64 (duration.secs : Int) := ⟨by omega, by omega⟩
  have hday : ((duration.secs : Int) % 86400) = (duration.secs % 86400 : Nat) := by omega
  have hofDay : duration.secs % 86400 < 86400 := Nat.mod_lt _ (by decide)
  rw [currentTimestamp]
  simp only
  rw [if_neg (not_not_intro hseconds), hday]
  clear hday
  generalize duration.secs % 86400 = ofDay at hofDay
  have hsmall : IsI64 (ofDay : Int) := isI64_small (by omega) (by omega)
  have hrest : IsI64 ((ofDay : Int) % 3600) := isI64_small (by omega) (by omega)
  rw [bind_of_eq hfound]
  simp only
  rw [bind_of_eq (div_eq (by omega) (by omega) hsmall),
    bind_of_eq (rem_eq (by omega) (by omega) (isI64_small (by omega) (by omega))),
    bind_of_eq (div_eq (by omega) (by omega) hrest),
    bind_of_eq (rem_eq (by omega) (by omega) (isI64_small (by omega) (by omega)))]
  rfl

/-- The timestamp of a clock up to the year 9999. -/
theorem currentTimestamp_ok (duration : Duration) {date : Date} (hvalid : date.Valid)
    (hcount : daysFromCivil date = (duration.secs : Int) / 86400) (hyear : date.year ≤ 9999) :
    ∃ timestamp, currentTimestamp (some duration) = some (.ok timestamp) ∧
      timestamp.nanos = duration.nanos := by
  have hlast := (year_le_iff hvalid).1 hyear
  have hpos := year_nonneg hvalid (by omega)
  obtain ⟨date, rfl⟩ : ∃ d, date = .ofDate d := by
    have hmonth := hvalid.month_pos
    have hday := hvalid.day_pos
    refine ⟨⟨date.year.toNat, date.month.toNat, date.day.toNat⟩, ?_⟩
    ext <;> simp only [Date.ofDate] <;> omega
  rw [ofDate_valid] at hvalid
  have hdayOf := dayOf_eq hvalid
  have hnanos := duration.subsecNanos_lt
  have hparse := parse_clockText hvalid (show date.year < 10000 by
      simp only [Date.ofDate] at hyear
      omega)
    (show duration.secs % 86400 / 3600 < 24 by omega)
    (show duration.secs % 86400 % 3600 / 60 < 60 by omega)
    (show duration.secs % 86400 % 60 < 60 by omega) hnanos
  have hinstant : minNanos + ((nanosPerDay * Rfc3339.dayOf date +
      nanosPerHour * (duration.secs % 86400 / 3600) +
      nanosPerMinute * (duration.secs % 86400 % 3600 / 60) +
      nanosPerSecond * (duration.secs % 86400 % 60) + duration.subsecNanos : Nat) : Int) =
      duration.nanos := by
    simp only [Duration.nanos, minNanos, nanosPerDay, nanosPerHour, nanosPerMinute, nanosPerSecond]
    omega
  have hrange : minNanos ≤ duration.nanos ∧ duration.nanos ≤ maxNanos := by
    simp only [Duration.nanos, minNanos, maxNanos, nanosPerSecond] at hnanos ⊢
    omega
  refine ⟨⟨duration.nanos, hrange.1, hrange.2⟩, ?_, rfl⟩
  rw [currentTimestamp_eq duration (ofDate_valid.2 hvalid) hcount (by omega),
    UtcTimestamp.parseRfc3339_of_parse (by rw [String.toList_ofList]; exact hparse), hinstant,
    UtcTimestamp.new, dif_pos hrange]
  rfl

theorem currentTimestamp_error (duration : Duration) {date : Date} (hvalid : date.Valid)
    (hcount : daysFromCivil date = (duration.secs : Int) / 86400) (hyear : 9999 < date.year) :
    ∃ message, currentTimestamp (some duration) = some (.error message) := by
  by_cases hsecs : duration.secs < 2 ^ 63
  · rw [currentTimestamp_eq duration hvalid hcount hsecs, UtcTimestamp.parseRfc3339,
      String.toList_ofList, parse_clockText_none (by omega)]
    exact ⟨_, rfl⟩
  · have hlarge : ¬IsI64 (duration.secs : Int) := by
      unfold IsI64
      omega
    refine ⟨"system clock exceeds supported timestamp", ?_⟩
    rw [currentTimestamp]
    simp only
    rw [if_pos hlarge]

/-- **The Gregorian calendar.** Every day of `i64`, up to where the first sum
overflows, has its valid date, found without an overflow; later days have later
dates; every time of a clock after the epoch is on such a day, and its
timestamp is the same instant up to the year 9999, and an error after it. -/
theorem civil_from_days :
    (∀ n, -2 ^ 63 ≤ n → n + 719468 < 2 ^ 63 →
      ∃ date : Date, civilFromDays n = some (date.year, date.month, date.day) ∧ date.Valid ∧
        daysFromCivil date = n) ∧
    (∀ (n m : Int) (a b : Date), -2 ^ 63 ≤ n → m + 719468 < 2 ^ 63 → n < m →
      civilFromDays n = some (a.year, a.month, a.day) →
      civilFromDays m = some (b.year, b.month, b.day) → a < b) ∧
    ∀ duration : Duration, ∃ date : Date,
      civilFromDays ((duration.secs : Int) / 86400) = some (date.year, date.month, date.day) ∧
      date.Valid ∧ daysFromCivil date = (duration.secs : Int) / 86400 ∧
      (date.year ≤ 9999 → ∃ timestamp, currentTimestamp (some duration) = some (.ok timestamp) ∧
        timestamp.nanos = duration.nanos) ∧
      (9999 < date.year → ∃ message, currentTimestamp (some duration) = some (.error message)) := by
  refine ⟨fun n => civilFromDays_spec, fun n m a b => civilFromDays_lt, fun duration => ?_⟩
  have hlt := duration.secs_lt
  have hlow : -2 ^ 63 ≤ (duration.secs : Int) / 86400 := by omega
  have hhigh : (duration.secs : Int) / 86400 + 719468 < 2 ^ 63 := by omega
  obtain ⟨date, hdate, hvalid, hcount⟩ := civilFromDays_spec hlow hhigh
  exact ⟨date, hdate, hvalid, hcount, currentTimestamp_ok duration hvalid hcount,
    currentTimestamp_error duration hvalid hcount⟩

/-- A leap day, and a clock in the last second of the year 9999 and in the next one. -/
theorem civil_from_days_sample :
    (∃ date : Date, civilFromDays 19782 = some (date.year, date.month, date.day) ∧ date.Valid ∧
      daysFromCivil date = 19782) ∧
    (∃ timestamp, currentTimestamp (some ⟨253402300799, 0, by decide, by decide⟩) =
      some (.ok timestamp)) ∧
    ∃ message, currentTimestamp (some ⟨253402300800, 0, by decide, by decide⟩) =
      some (.error message) := by
  refine ⟨civil_from_days.1 19782 (by decide) (by decide), ?_, ?_⟩
  · obtain ⟨date, hdate, -, -, hok, -⟩ :=
      civil_from_days.2.2 ⟨253402300799, 0, by decide, by decide⟩
    have hlast : civilFromDays (((253402300799 : Nat) : Int) / 86400) = some (9999, 12, 31) := by
      decide +kernel
    obtain ⟨hyear, -⟩ := Prod.mk.inj (Option.some.inj (hdate.symm.trans hlast))
    obtain ⟨timestamp, htimestamp, -⟩ := hok (Int.le_of_eq hyear)
    exact ⟨timestamp, htimestamp⟩
  · obtain ⟨date, hdate, -, -, -, herror⟩ :=
      civil_from_days.2.2 ⟨253402300800, 0, by decide, by decide⟩
    have hnext : civilFromDays (((253402300800 : Nat) : Int) / 86400) = some (10000, 1, 1) := by
      decide +kernel
    obtain ⟨hyear, -⟩ := Prod.mk.inj (Option.some.inj (hdate.symm.trans hnext))
    exact herror (by rw [hyear]; decide)

end CodingAgent.L4.App.Clock
