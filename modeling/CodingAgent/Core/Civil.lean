import CodingAgent.Core.Rfc3339

/-!
# The proleptic Gregorian calendar

Dates of all years, before the year 0 too, and the number of their day counted
from 1970-01-01: the days of the years before, of the months before and of the
month.

* `daysFromCivil_lt_iff`: valid dates are ordered as their days are.
* `daysFromCivil_march`: the day in years that begin in March.
* `dayOf_eq`: `Rfc3339.dayOf` counts the same days from 0000-01-01.
-/
namespace CodingAgent.Civil
open Rfc3339 (monthStart)

@[ext] structure Date where
  year : Int
  month : Int
  day : Int
  deriving DecidableEq, Repr

def isLeap (year : Int) : Bool := year % 4 = 0 && (year % 100 ≠ 0 || year % 400 = 0)

def daysInMonth (year month : Int) : Int :=
  if month = 2 then if isLeap year then 29 else 28
  else if month = 4 ∨ month = 6 ∨ month = 9 ∨ month = 11 then 30
  else 31

structure Date.Valid (date : Date) : Prop where
  month_pos : 1 ≤ date.month
  month_le : date.month ≤ 12
  day_pos : 1 ≤ date.day
  day_le : date.day ≤ daysInMonth date.year date.month

/-- The days from 1970-01-01 to the first of a year; of the years before 1970,
477 are leap years. -/
def daysBeforeYear (year : Int) : Int :=
  365 * (year - 1970) + ((year - 1) / 4 - (year - 1) / 100 + (year - 1) / 400) - 477

/-- The days of the months before a month. -/
def daysBeforeMonth (year month : Int) : Int :=
  ((List.range (month - 1).toNat).map fun m : Nat => daysInMonth year (m + 1)).sum

/-- The days from 1970-01-01 to a date. -/
def daysFromCivil (date : Date) : Int :=
  daysBeforeYear date.year + daysBeforeMonth date.year date.month + (date.day - 1)

/-- The order of dates. -/
def Date.lt (a b : Date) : Prop :=
  a.year < b.year ∨ a.year = b.year ∧ (a.month < b.month ∨ a.month = b.month ∧ a.day < b.day)

instance : LT Date := ⟨Date.lt⟩

theorem date_lt_iff {a b : Date} : a < b ↔ a.year < b.year ∨
    a.year = b.year ∧ (a.month < b.month ∨ a.month = b.month ∧ a.day < b.day) := Iff.rfl

/-! ## Years and months -/

/-- A year has 365 days, a leap year 366. -/
theorem daysBeforeYear_succ (year : Int) :
    daysBeforeYear (year + 1) = daysBeforeYear year + if isLeap year then 366 else 365 := by
  simp only [daysBeforeYear, isLeap, Bool.and_eq_true, Bool.or_eq_true, decide_eq_true_eq]
  split <;> omega

theorem daysBeforeYear_lt {a b : Int} (h : a < b) :
    daysBeforeYear (a + 1) ≤ daysBeforeYear b := by
  simp only [daysBeforeYear]
  omega

theorem daysInMonth_pos (year month : Int) : 28 ≤ daysInMonth year month := by
  unfold daysInMonth
  split_ifs <;> omega

theorem daysBeforeMonth_succ (year : Int) {month : Int} (h : 1 ≤ month) :
    daysBeforeMonth year (month + 1) = daysBeforeMonth year month + daysInMonth year month := by
  obtain ⟨m, rfl⟩ : ∃ m : Nat, month = m + 1 := ⟨(month - 1).toNat, by omega⟩
  have hm : ((m : Int) + 1 - 1).toNat = m := by omega
  have hm' : ((m : Int) + 1 + 1 - 1).toNat = m + 1 := by omega
  rw [daysBeforeMonth, daysBeforeMonth, hm, hm', List.range_succ]
  simp

/-- A month ends before a later one begins. -/
theorem daysBeforeMonth_lt (year : Int) {a b : Int} (hpos : 1 ≤ a) (h : a < b) :
    daysBeforeMonth year a + daysInMonth year a ≤ daysBeforeMonth year b := by
  obtain ⟨n, rfl⟩ : ∃ n : Nat, b = a + 1 + n := ⟨(b - (a + 1)).toNat, by omega⟩
  clear h
  induction n with
  | zero =>
    rw [Int.natCast_zero, Int.add_zero]
    exact Int.le_of_eq (daysBeforeMonth_succ year hpos).symm
  | succ n ih =>
    have hnext := daysBeforeMonth_succ year (show 1 ≤ a + 1 + n by omega)
    have hmonth := daysInMonth_pos year (a + 1 + n)
    rw [Int.natCast_succ, ← Int.add_assoc]
    omega

/-- What the months add up to. -/
theorem daysBeforeMonth_eq (year : Int) {m : Nat} (h : m ≤ 12) :
    daysBeforeMonth year (m + 1) =
      if m ≤ 1 then 31 * (m : Int) else monthStart (m - 2) + 59 + if isLeap year then 1 else 0 := by
  have key : ∀ leap : Bool, ∀ m < 13,
      ((List.range m).map fun i : Nat =>
        (if (i : Int) + 1 = 2 then if leap then 29 else 28
          else if (i : Int) + 1 = 4 ∨ (i : Int) + 1 = 6 ∨ (i : Int) + 1 = 9 ∨ (i : Int) + 1 = 11
            then 30 else 31 : Int)).sum =
        if m ≤ 1 then 31 * (m : Int) else monthStart (m - 2) + 59 + if leap then 1 else 0 := by
    decide
  have hm : ((m : Int) + 1 - 1).toNat = m := by omega
  rw [daysBeforeMonth, hm]
  exact key (isLeap year) m (by omega)

/-- The last month of a year ends with the year. -/
theorem daysBeforeMonth_le (year : Int) {month : Int} (hpos : 1 ≤ month) (hle : month ≤ 12) :
    daysBeforeMonth year month + daysInMonth year month ≤ if isLeap year then 366 else 365 := by
  have hend := daysBeforeMonth_lt year hpos (show month < 13 by omega)
  have hyear := daysBeforeMonth_eq year (Nat.le_refl 12)
  rw [show ((12 : Nat) : Int) + 1 = 13 from rfl, if_neg (by decide)] at hyear
  have htotal : ((monthStart (12 - 2) : Nat) : Int) = 306 := rfl
  rw [hyear, htotal] at hend
  split_ifs at hend ⊢ <;> omega

theorem daysBeforeMonth_nonneg (year : Int) {month : Int} (hpos : 1 ≤ month) :
    0 ≤ daysBeforeMonth year month := by
  rcases Int.lt_or_eq_of_le hpos with hlt | rfl
  · have hfirst : daysBeforeMonth year 1 = 0 := rfl
    have := daysBeforeMonth_lt year (Int.le_refl 1) hlt
    have := daysInMonth_pos year 1
    omega
  · exact Int.le_refl 0

/-! ## The order of dates -/

theorem daysFromCivil_lt {a b : Date} (ha : a.Valid) (hb : b.Valid) (h : a < b) :
    daysFromCivil a < daysFromCivil b := by
  have hday : a.day ≤ daysInMonth a.year a.month := ha.day_le
  have hpos : 1 ≤ b.day := hb.day_pos
  simp only [daysFromCivil]
  rcases h with hyear | ⟨hyear, hmonth | ⟨hmonth, hday⟩⟩
  · have hend := daysBeforeMonth_le a.year ha.month_pos ha.month_le
    have hstart := daysBeforeMonth_nonneg b.year hb.month_pos
    have hnext := daysBeforeYear_succ a.year
    have hle := daysBeforeYear_lt hyear
    omega
  · have hle := daysBeforeMonth_lt a.year ha.month_pos hmonth
    rw [← hyear]
    omega
  · rw [← hyear, ← hmonth]
    omega

theorem date_trichotomy (a b : Date) : a < b ∨ a = b ∨ b < a := by
  simp only [date_lt_iff, Date.ext_iff]
  omega

/-- **Dates are ordered as their days are.** -/
theorem daysFromCivil_lt_iff {a b : Date} (ha : a.Valid) (hb : b.Valid) :
    daysFromCivil a < daysFromCivil b ↔ a < b := by
  refine ⟨fun h => ?_, daysFromCivil_lt ha hb⟩
  rcases date_trichotomy a b with hlt | rfl | hlt
  · exact hlt
  · omega
  · have := daysFromCivil_lt hb ha hlt
    omega

theorem daysFromCivil_inj {a b : Date} (ha : a.Valid) (hb : b.Valid)
    (h : daysFromCivil a = daysFromCivil b) : a = b := by
  rcases date_trichotomy a b with hlt | heq | hlt
  · have := daysFromCivil_lt ha hb hlt
    omega
  · exact heq
  · have := daysFromCivil_lt hb ha hlt
    omega

/-! ## Years that begin in March -/

/-- The date of a month and a day of a year that begins in March. -/
def marchDate (year : Int) (month : Nat) (day : Int) : Date where
  year := if month < 10 then year else year + 1
  month := if month < 10 then month + 3 else month - 9
  day := day

/-- The day of such a date; the first of March is 306 days before the next
year. -/
theorem daysFromCivil_march {year day : Int} {month : Nat} (h : month ≤ 11) :
    daysFromCivil (marchDate year month day) =
      365 * (year - 1969) + (year / 4 - year / 100 + year / 400) - 783 + monthStart month +
        (day - 1) := by
  have hnext := daysBeforeYear_succ year
  have hyear : daysBeforeYear (year + 1) =
      365 * (year - 1969) + (year / 4 - year / 100 + year / 400) - 477 := by
    simp only [daysBeforeYear]
    omega
  simp only [daysFromCivil, marchDate]
  by_cases hmonth : month < 10
  · have hstart := daysBeforeMonth_eq year (show month + 2 ≤ 12 by omega)
    have hcast : ((month + 2 : Nat) : Int) + 1 = month + 3 := by omega
    rw [hcast, if_neg (by omega), Nat.add_sub_cancel] at hstart
    rw [if_pos hmonth, if_pos hmonth, hstart]
    split_ifs at hnext ⊢ <;> omega
  · obtain ⟨m, rfl⟩ : ∃ m, month = m + 10 := ⟨month - 10, by omega⟩
    have hstart := daysBeforeMonth_eq (year + 1) (show m ≤ 12 by omega)
    have hcast : ((m + 10 : Nat) : Int) - 9 = m + 1 := by omega
    rw [if_pos (by omega)] at hstart
    rw [if_neg hmonth, if_neg hmonth, hcast, hstart, hyear, monthStart]
    omega

/-- Which days a month has. -/
theorem marchDate_valid {year day : Int} {month : Nat} (h : month ≤ 11) (hpos : 1 ≤ day)
    (hle : day ≤ monthStart (month + 1) - monthStart month)
    (hleap : month = 11 → day = 29 → isLeap (year + 1) = true)
    (hfebruary : month = 11 → day ≤ 29) :
    (marchDate year month day).Valid := by
  constructor
  · simp only [marchDate]
    split_ifs <;> omega
  · simp only [marchDate]
    split_ifs <;> omega
  · exact hpos
  · by_cases hlast : month = 11
    · subst hlast
      have hday := hfebruary rfl
      show day ≤ daysInMonth (year + 1) 2
      rw [daysInMonth, if_pos rfl]
      split_ifs with hyear
      · exact hday
      · have : day ≠ 29 := fun h29 => hyear (hleap rfl h29)
        omega
    · simp only [marchDate, daysInMonth, monthStart] at hle ⊢
      split_ifs <;> omega

/-! ## Days from 0000-01-01 -/

/-- A date of the years from 0 on. -/
def Date.ofDate (date : Rfc3339.Date) : Date := ⟨date.year, date.month, date.day⟩

theorem isLeap_natCast (year : Nat) : isLeap year = Rfc3339.isLeap year := by
  rw [isLeap, Rfc3339.isLeap, Bool.eq_iff_iff]
  simp only [Bool.and_eq_true, Bool.or_eq_true, decide_eq_true_eq]
  omega

theorem daysInMonth_natCast (year month : Nat) :
    daysInMonth year month = Rfc3339.daysInMonth year month := by
  simp only [daysInMonth, Rfc3339.daysInMonth, isLeap_natCast]
  split_ifs <;> omega

theorem ofDate_valid {date : Rfc3339.Date} :
    (Date.ofDate date).Valid ↔ date.Valid := by
  have hdays := daysInMonth_natCast date.year date.month
  constructor
  · rintro ⟨h₁, h₂, h₃, h₄⟩
    simp only [Date.ofDate] at h₁ h₂ h₃ h₄
    exact ⟨by omega, by omega, by omega, by omega⟩
  · rintro ⟨h₁, h₂, h₃, h₄⟩
    refine ⟨?_, ?_, ?_, ?_⟩ <;> simp only [Date.ofDate] <;> omega

/-- The same day counted from 0000-01-01 and from 1970-01-01. -/
theorem dayOf_eq {date : Rfc3339.Date} (h : date.Valid) :
    (Rfc3339.dayOf date : Int) = daysFromCivil (.ofDate date) + 719528 := by
  obtain ⟨hpos, hle, hday, -⟩ := h
  obtain ⟨year, month, day⟩ := date
  simp only at hpos hle hday
  by_cases hmonth : month ≤ 2
  · have hdate : Date.ofDate ⟨year, month, day⟩ = marchDate ((year : Int) - 1) (month + 9) day := by
      have hlast : ¬month + 9 < 10 := by omega
      simp only [Date.ofDate, marchDate, if_neg hlast]
      ext <;> simp
    rw [hdate, daysFromCivil_march (by omega)]
    simp only [Rfc3339.dayOf, Rfc3339.eraYears, Rfc3339.daysBefore, Rfc3339.marchOffset,
      if_pos hmonth, monthStart]
    omega
  · have hdate : Date.ofDate ⟨year, month, day⟩ = marchDate year (month - 3) day := by
      have hfirst : month - 3 < 10 := by omega
      have hcast : ((month - 3 : Nat) : Int) + 3 = month := by omega
      simp only [Date.ofDate, marchDate, if_pos hfirst, hcast]
    rw [hdate, daysFromCivil_march (by omega)]
    simp only [Rfc3339.dayOf, Rfc3339.eraYears, Rfc3339.daysBefore, Rfc3339.marchOffset,
      if_neg hmonth, monthStart]
    omega

end CodingAgent.Civil
