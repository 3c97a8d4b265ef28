import CodingAgent.Core.Digits
import Mathlib.Order.Basic

/-!
# Instants and their RFC 3339 texts

The proleptic Gregorian calendar between days counted from 0000-01-01 and
dates, and the texts `YYYY-MM-DDThh:mm:ss.nnnnnnnnnZ` of instants counted in
nanoseconds from the start of that day. The reader takes any RFC 3339 text: a
fraction of any length, of which nine digits count, any separator of one byte
between date and time, `Z` or an offset, and a leap second where a month may end in
one, which it reads as the nanosecond before it. Instants after the year 9999
are left to the caller.

* `dayOf_dateOf`, `dateOf_valid`: the calendar is consistent.
* `parse_format`: the reader undoes the writer for every year up to 9999.
-/
namespace CodingAgent.Rfc3339
open Digits

/-! ## The calendar -/

structure Date where
  year : Nat
  month : Nat
  day : Nat
  deriving DecidableEq, Repr

def isLeap (year : Nat) : Bool := year % 4 = 0 && (year % 100 ≠ 0 || year % 400 = 0)

def daysInMonth (year month : Nat) : Nat :=
  if month = 2 then if isLeap year then 29 else 28
  else if month = 4 ∨ month = 6 ∨ month = 9 ∨ month = 11 then 30
  else 31

/-- The days of an era of 400 years before a year of it. -/
def daysBefore (year : Nat) : Nat := 365 * year + year / 4 - year / 100

/-- The days of a year before a month of it; years begin in March. -/
def monthStart (month : Nat) : Nat := (153 * month + 2) / 5

/-- The years of an era. -/
def eraYears : Nat := 400

/-- The days from the first March of the era before year 0 to 0000-01-01. -/
def marchOffset : Nat := 146037

/-- The day of a date, counted from 0000-01-01. -/
def dayOf (date : Date) : Nat :=
  let year := date.year + eraYears - (if date.month ≤ 2 then 1 else 0)
  let month := if date.month ≤ 2 then date.month + 9 else date.month - 3
  146097 * (year / 400) + daysBefore (year % 400) + monthStart month + date.day - 1 - marchOffset

/-- The year of an era a day is in, and the day of that year. -/
def yearOf (n : Nat) : Nat × Nat :=
  let century := min (n / 36524) 3
  let rest := n - 36524 * century
  let year := min (rest % 1461 / 365) 3
  (100 * century + 4 * (rest / 1461) + year, rest % 1461 - 365 * year)

/-- The month of a day of the year, March first. -/
def monthOf (dayOfYear : Nat) : Nat := (5 * dayOfYear + 2) / 153

/-- The date of a day of a year that begins in March. -/
def dateAt (year dayOfYear : Nat) : Date where
  year := year + (if 10 ≤ monthOf dayOfYear then 1 else 0) - eraYears
  month := if 10 ≤ monthOf dayOfYear then monthOf dayOfYear - 9 else monthOf dayOfYear + 3
  day := dayOfYear - monthStart (monthOf dayOfYear) + 1

/-- The date of a day. -/
def dateOf (n : Nat) : Date :=
  let shifted := n + marchOffset
  dateAt (400 * (shifted / 146097) + (yearOf (shifted % 146097)).1) (yearOf (shifted % 146097)).2


/-- What the year of an era leaves: its days and, in a leap year, the 29th of
February, which is its last day. -/
theorem yearOf_spec {n : Nat} (h : n < 146097) : ∃ century four year,
    (yearOf n).1 = 100 * century + 4 * four + year ∧ century ≤ 3 ∧ four ≤ 24 ∧ year ≤ 3 ∧
      n = 36524 * century + 1461 * four + 365 * year + (yearOf n).2 ∧ (yearOf n).2 ≤ 365 ∧
      ((yearOf n).2 = 365 → year = 3 ∧ (four = 24 → century = 3)) := by
  have hcentury : min (n / 36524) 3 ≤ 3 ∧ 36524 * min (n / 36524) 3 ≤ n ∧
      n - 36524 * min (n / 36524) 3 ≤ 36524 ∧
      (n - 36524 * min (n / 36524) 3 = 36524 → min (n / 36524) 3 = 3) := by omega
  simp only [yearOf]
  generalize min (n / 36524) 3 = century at hcentury ⊢
  obtain ⟨hc, hle, hrest, hlast⟩ := hcentury
  obtain ⟨rest, rfl⟩ := Nat.exists_eq_add_of_le hle
  rw [Nat.add_sub_cancel_left] at hrest hlast ⊢
  refine ⟨century, rest / 1461, min (rest % 1461 / 365) 3, rfl, hc, ?_, ?_, ?_, ?_, ?_⟩
  all_goals omega

theorem daysBefore_eq (century : Nat) {four year : Nat} (hf : four ≤ 24) (hy : year ≤ 3) :
    daysBefore (100 * century + 4 * four + year) = 36524 * century + 1461 * four + 365 * year := by
  rw [daysBefore]
  omega

theorem monthOf_spec {day : Nat} (h : day ≤ 365) : monthStart (monthOf day) ≤ day ∧
    monthOf day ≤ 11 ∧ day < monthStart (monthOf day + 1) := by
  simp only [monthStart, monthOf]
  omega

/-- A day as a day of a year that begins in March. -/
structure Marched (n year dayOfYear : Nat) : Prop where
  eq : n + marchOffset = 146097 * (year / 400) + daysBefore (year % 400) + dayOfYear
  le : dayOfYear ≤ 365
  leap : dayOfYear = 365 → isLeap (year + 1) = true
  first : year = 399 → 306 ≤ dayOfYear
  year_ge : 399 ≤ year

theorem dateOf_marched (n : Nat) :
    ∃ year dayOfYear, dateOf n = dateAt year dayOfYear ∧ Marched n year dayOfYear := by
  have hmod : (n + marchOffset) % 146097 < 146097 := Nat.mod_lt _ (by omega)
  obtain ⟨century, four, year, hyear, hc, hf, hy, hn, hd, hleap⟩ := yearOf_spec hmod
  have hera : n + marchOffset = 146097 * ((n + marchOffset) / 146097) + (n + marchOffset) % 146097 := by omega
  have hbefore := daysBefore_eq century hf hy
  refine ⟨_, _, rfl, ?_⟩
  rw [hyear]
  generalize (yearOf ((n + marchOffset) % 146097)).2 = dayOfYear at hn hd hleap ⊢
  generalize (n + marchOffset) / 146097 = era at hera ⊢
  have hdiv : (400 * era + (100 * century + 4 * four + year)) / 400 = era := by omega
  have hrem : (400 * era + (100 * century + 4 * four + year)) % 400 =
      100 * century + 4 * four + year := by omega
  constructor
  · rw [hdiv, hrem, hbefore]
    omega
  · exact hd
  · intro hlast
    have hlast := hleap hlast
    simp only [isLeap, Bool.and_eq_true, Bool.or_eq_true, decide_eq_true_eq]
    omega
  · intro hfirst
    rw [marchOffset] at hera hn
    omega
  · rw [marchOffset] at hera hn
    omega

theorem dayOf_dateAt {n year dayOfYear : Nat} (h : Marched n year dayOfYear) :
    dayOf (dateAt year dayOfYear) = n := by
  obtain ⟨heq, hle, -, hfirst, hge⟩ := h
  obtain ⟨hstart, hmonth, -⟩ := monthOf_spec hle
  have hjanuary : year = 399 → 10 ≤ monthOf dayOfYear := by
    rw [monthOf]
    omega
  have hyear : (dateAt year dayOfYear).year + eraYears -
      (if (dateAt year dayOfYear).month ≤ 2 then 1 else 0) = year := by
    simp only [dateAt, eraYears]
    split_ifs <;> omega
  have hmonths : (if (dateAt year dayOfYear).month ≤ 2 then (dateAt year dayOfYear).month + 9
      else (dateAt year dayOfYear).month - 3) = monthOf dayOfYear := by
    simp only [dateAt]
    split_ifs <;> omega
  have hday : (dateAt year dayOfYear).day = dayOfYear - monthStart (monthOf dayOfYear) + 1 := rfl
  simp only [dayOf]
  rw [hyear, hmonths, hday]
  omega

theorem dayOf_dateOf (n : Nat) : dayOf (dateOf n) = n := by
  obtain ⟨year, dayOfYear, hdate, h⟩ := dateOf_marched n
  rw [hdate, dayOf_dateAt h]

/-- What the components of a date must be. -/
structure Date.Valid (date : Date) : Prop where
  month_pos : 1 ≤ date.month
  month_le : date.month ≤ 12
  day_pos : 1 ≤ date.day
  day_le : date.day ≤ daysInMonth date.year date.month

theorem isLeap_era (year : Nat) : isLeap (year + eraYears) = isLeap year := by
  have h₄ : (year + eraYears) % 4 = year % 4 := by rw [eraYears]; omega
  have h₁₀₀ : (year + eraYears) % 100 = year % 100 := by rw [eraYears]; omega
  have h₄₀₀ : (year + eraYears) % 400 = year % 400 := by rw [eraYears]; omega
  rw [isLeap, isLeap, h₄, h₁₀₀, h₄₀₀]

/-- Every month but February ends where the next one starts. -/
theorem daysInMonth_march (year : Nat) {month : Nat} (h : month < 11) :
    daysInMonth year (if 10 ≤ month then month - 9 else month + 3) =
      monthStart (month + 1) - monthStart month := by
  have key : ∀ leap : Bool, ∀ month : Fin 11,
      (if (if 10 ≤ month.val then month.val - 9 else month.val + 3) = 2 then
          if leap then 29 else 28
        else if (if 10 ≤ month.val then month.val - 9 else month.val + 3) = 4 ∨
            (if 10 ≤ month.val then month.val - 9 else month.val + 3) = 6 ∨
            (if 10 ≤ month.val then month.val - 9 else month.val + 3) = 9 ∨
            (if 10 ≤ month.val then month.val - 9 else month.val + 3) = 11 then 30
        else 31) = monthStart (month.val + 1) - monthStart month.val := by decide
  exact key (isLeap year) ⟨month, h⟩

theorem dateAt_valid {n year dayOfYear : Nat} (h : Marched n year dayOfYear) :
    (dateAt year dayOfYear).Valid := by
  obtain ⟨-, hle, hleap, hfirst, hge⟩ := h
  obtain ⟨hstart, hmonth, hnext⟩ := monthOf_spec hle
  have hjanuary : year = 399 → 10 ≤ monthOf dayOfYear := by
    rw [monthOf]
    omega
  constructor
  · simp only [dateAt]
    split_ifs <;> omega
  · simp only [dateAt]
    split_ifs <;> omega
  · exact Nat.succ_pos _
  · by_cases hfebruary : monthOf dayOfYear = 11
    · have hyear : year + 1 = (dateAt year dayOfYear).year + eraYears := by
        show year + 1 = year + (if 10 ≤ monthOf dayOfYear then 1 else 0) - eraYears + eraYears
        rw [hfebruary, if_pos (by decide), eraYears]
        omega
      have hday : (dateAt year dayOfYear).day = dayOfYear - 337 + 1 := by
        simp only [dateAt, hfebruary]
        rfl
      have hmonth : (dateAt year dayOfYear).month = 2 := by
        simp only [dateAt, hfebruary]
        rfl
      rw [hyear, isLeap_era] at hleap
      rw [hday, hmonth, daysInMonth, if_pos rfl]
      split
      · omega
      · next hnot =>
        have : dayOfYear ≠ 365 := fun h => hnot (hleap h)
        omega
    · have hlength := daysInMonth_march (dateAt year dayOfYear).year
        (show monthOf dayOfYear < 11 by omega)
      have hmonth : (dateAt year dayOfYear).month =
          if 10 ≤ monthOf dayOfYear then monthOf dayOfYear - 9 else monthOf dayOfYear + 3 := rfl
      have hday : (dateAt year dayOfYear).day = dayOfYear - monthStart (monthOf dayOfYear) + 1 := rfl
      rw [hmonth, hlength, hday]
      omega

theorem dateOf_valid (n : Nat) : (dateOf n).Valid := by
  obtain ⟨year, dayOfYear, hdate, h⟩ := dateOf_marched n
  rw [hdate]
  exact dateAt_valid h

/-- The last day of the year 9999. -/
theorem dateOf_year {n : Nat} (h : n < 3652425) : (dateOf n).year < 10000 := by
  obtain ⟨year, dayOfYear, hdate, hm⟩ := dateOf_marched n
  have heq := hm.eq
  have hjanuary : 10 ≤ monthOf dayOfYear → 306 ≤ dayOfYear := by
    rw [monthOf]
    omega
  rw [hdate]
  simp only [dateAt, eraYears, daysBefore, marchOffset] at heq ⊢
  split <;> omega

theorem daysInMonth_le (year month : Nat) : daysInMonth year month ≤ 31 := by
  unfold daysInMonth
  split_ifs <;> omega

/-- A date up to the end of the year 9999 is one of those days. -/
theorem dayOf_lt {date : Date} (hdate : date.Valid) (hyear : date.year < 10000) :
    dayOf date < 3652425 := by
  obtain ⟨hpos, hle, -, hday⟩ := hdate
  have hday : date.day ≤ 31 := Nat.le_trans hday (daysInMonth_le _ _)
  rw [dayOf]
  simp only [eraYears, marchOffset, monthStart, daysBefore]
  split_ifs <;> omega

/-- The days of an era. -/
def eraDays : Nat := 146097

/-- The year of a day before or after 0000-01-01. -/
def yearOfDay (day : Int) : Int :=
  eraYears * (day / eraDays) + (dateOf (day % eraDays).toNat).year

/-- The days of the era that begins with the year 0 are those of its years. -/
theorem dateOf_year_era {n : Nat} (h : n < eraDays) : (dateOf n).year < eraYears := by
  obtain ⟨year, dayOfYear, hdate, hm⟩ := dateOf_marched n
  have heq := hm.eq
  have hjanuary : 10 ≤ monthOf dayOfYear → 306 ≤ dayOfYear := by
    rw [monthOf]
    omega
  rw [hdate]
  simp only [dateAt, eraYears, daysBefore, marchOffset, eraDays] at heq h ⊢
  split <;> omega

/-- The years `0..=9999` are the first twenty-five eras. -/
theorem yearOfDay_mem_iff (day : Int) :
    (0 ≤ yearOfDay day ∧ yearOfDay day ≤ 9999) ↔ 0 ≤ day ∧ day < 3652425 := by
  have hmod : 0 ≤ day % eraDays ∧ day % eraDays < eraDays := by
    simp only [eraDays]
    omega
  have hyear : (dateOf (day % eraDays).toNat).year < eraYears := dateOf_year_era (by omega)
  simp only [yearOfDay, eraYears, eraDays] at hyear ⊢
  omega

/-- The day before the year 0 and the days up to the year 9999. -/
theorem yearOfDay_range {day : Int} (hge : -1 ≤ day) (hlt : day < 3652425) :
    -9999 ≤ yearOfDay day ∧ yearOfDay day ≤ 9999 := by
  rcases Int.lt_or_le day 0 with hneg | hpos
  · obtain rfl : day = -1 := by omega
    decide
  · have := (yearOfDay_mem_iff day).mpr ⟨hpos, hlt⟩
    omega

/-! ## Texts -/

def nanosPerSecond : Nat := 10 ^ 9

def nanosPerMinute : Nat := 60 * 10 ^ 9

def nanosPerHour : Nat := 3600 * 10 ^ 9

def nanosPerDay : Nat := 86400 * 10 ^ 9

/-- `[year]-[month]-[day]`. -/
def formatDate (date : Date) : List Char :=
  numeral 10 4 date.year ++ '-' :: (numeral 10 2 date.month ++ '-' :: numeral 10 2 date.day)

/-- `[hour]:[minute]:[second]`. -/
def formatClock (hour minute second : Nat) : List Char :=
  numeral 10 2 hour ++ ':' :: (numeral 10 2 minute ++ ':' :: numeral 10 2 second)

/-- `[year]-[month]-[day]T[hour]:[minute]:[second].[subsecond digits:9]Z`. -/
def format (t : Nat) : List Char :=
  formatDate (dateOf (t / nanosPerDay)) ++ 'T' ::
    (formatClock (t % nanosPerDay / nanosPerHour) (t % nanosPerHour / nanosPerMinute)
      (t % nanosPerMinute / nanosPerSecond) ++
    '.' :: (numeral 10 9 (t % nanosPerSecond) ++ ['Z']))

def readDate (cs : List Char) : Option (Date × List Char) := do
  let (year, cs) ← readFixed 10 4 cs
  let cs ← expect '-' cs
  let (month, cs) ← readFixed 10 2 cs
  let cs ← expect '-' cs
  let (day, cs) ← readFixed 10 2 cs
  some (⟨year, month, day⟩, cs)

theorem readDate_year {cs rest : List Char} {date : Date} (h : readDate cs = some (date, rest)) :
    date.year < 10000 := by
  simp only [readDate, Option.bind_eq_bind, Option.bind_eq_some_iff, Option.some.injEq,
    Prod.mk.injEq] at h
  obtain ⟨⟨year, cs₁⟩, hyear, cs₂, -, ⟨month, cs₃⟩, -, cs₄, -, ⟨day, cs₅⟩, -, rfl, -⟩ := h
  exact readFixed_lt hyear

/-- Hour, minute and second. -/
def readClock (cs : List Char) : Option ((Nat × Nat × Nat) × List Char) := do
  let (hour, cs) ← readFixed 10 2 cs
  let cs ← expect ':' cs
  let (minute, cs) ← readFixed 10 2 cs
  let cs ← expect ':' cs
  let (second, cs) ← readFixed 10 2 cs
  some ((hour, minute, second), cs)

/-- The nanoseconds of a fraction; none is zero. -/
def readFraction (cs : List Char) : Option (Nat × List Char) :=
  match expect '.' cs with
  | none => some (0, cs)
  | some cs =>
    let digits := cs.takeWhile Char.isDigit
    if digits.isEmpty then none
    else (readNumeral 10 ((digits ++ List.replicate 9 '0').take 9)).map fun n =>
      (n, cs.dropWhile Char.isDigit)

/-- Hours and minutes of an offset. -/
def readOffsetTime (cs : List Char) : Option (Nat × List Char) := do
  let (hours, cs) ← readFixed 10 2 cs
  let cs ← expect ':' cs
  let (minutes, cs) ← readFixed 10 2 cs
  if 23 < hours ∨ 59 < minutes then none else some (60 * hours + minutes, cs)

/-- The offset from UTC in minutes. -/
def readOffset : List Char → Option (Int × List Char)
  | [] => none
  | c :: cs =>
    if c = 'Z' ∨ c = 'z' then some (0, cs)
    else if c = '+' then (readOffsetTime cs).map fun (n, cs) => ((n : Int), cs)
    else if c = '-' then (readOffsetTime cs).map fun (n, cs) => (-(n : Int), cs)
    else none

instance (date : Date) : Decidable date.Valid :=
  decidable_of_iff (1 ≤ date.month ∧ date.month ≤ 12 ∧ 1 ≤ date.day ∧
      date.day ≤ daysInMonth date.year date.month)
    ⟨fun ⟨h₁, h₂, h₃, h₄⟩ => ⟨h₁, h₂, h₃, h₄⟩, fun ⟨h₁, h₂, h₃, h₄⟩ => ⟨h₁, h₂, h₃, h₄⟩⟩

/-- The last nanosecond of a month. -/
def endsMonth (t : Int) : Bool :=
  let date := dateOf (t.toNat / nanosPerDay)
  0 ≤ t && (t + 1) % nanosPerDay = 0 && date.day = daysInMonth date.year date.month

/-- The instant of a local time at an offset. -/
def instant (date : Date) (hour minute second nanos : Nat) (offset : Int) : Option Int :=
  let leap := second = 60
  let second := if leap then 59 else second
  let nanos := if leap then nanosPerSecond - 1 else nanos
  if ¬date.Valid ∨ 24 ≤ hour ∨ 60 ≤ minute ∨ 60 ≤ second then none
  else
    let t : Int := (nanosPerDay * dayOf date + nanosPerHour * hour + nanosPerMinute * minute +
      nanosPerSecond * second + nanos : Nat) - nanosPerMinute * offset
    if leap ∧ endsMonth t = false then none else some t

/-- The separator of date and time: any single byte. -/
def readSeparator : List Char → Option (List Char)
  | [] => none
  | c :: cs => if c.toNat < 0x80 then some cs else none

/-- The date, the time of day, the nanoseconds and the offset of a text. -/
def readFields (cs : List Char) : Option (Date × (Nat × Nat × Nat) × Nat × Int) := do
  let (date, cs) ← readDate cs
  let cs ← readSeparator cs
  let (clock, cs) ← readClock cs
  let (nanos, cs) ← readFraction cs
  let (offset, cs) ← readOffset cs
  if cs = [] then some (date, clock, nanos, offset) else none

/-- Reads an RFC 3339 text. -/
def parse (cs : List Char) : Option Int := do
  let (date, (hour, minute, second), nanos, offset) ← readFields cs
  instant date hour minute second nanos offset

theorem readFraction_lt {cs rest : List Char} {n : Nat} (h : readFraction cs = some (n, rest)) :
    n < nanosPerSecond := by
  rw [readFraction] at h
  split at h
  · obtain ⟨rfl, -⟩ := Prod.mk.inj (Option.some.inj h)
    decide
  · next cs _ =>
    simp only at h
    split at h
    · cases h
    · next hdigits =>
      rw [Option.map_eq_some_iff] at h
      obtain ⟨m, hm, heq⟩ := h
      obtain rfl : m = n := congrArg Prod.fst heq
      have hlt := readNumeral_lt hm
      have hlen : ((cs.takeWhile Char.isDigit ++ List.replicate 9 '0').take 9).length = 9 := by
        simp
      rwa [hlen] at hlt

theorem readOffsetTime_lt {cs rest : List Char} {n : Nat}
    (h : readOffsetTime cs = some (n, rest)) : n < 1440 := by
  simp only [readOffsetTime, Option.bind_eq_bind, Option.bind_eq_some_iff] at h
  obtain ⟨⟨hours, cs₁⟩, -, cs₂, -, ⟨minutes, cs₃⟩, -, h⟩ := h
  split at h
  · cases h
  · obtain ⟨rfl, -⟩ := Prod.mk.inj (Option.some.inj h)
    omega

/-- An offset is less than a day. -/
theorem readOffset_lt {cs rest : List Char} {o : Int} (h : readOffset cs = some (o, rest)) :
    -1440 < o ∧ o < 1440 := by
  cases cs with
  | nil => cases h
  | cons c cs =>
    rw [readOffset] at h
    split_ifs at h
    · obtain ⟨rfl, -⟩ := Prod.mk.inj (Option.some.inj h)
      decide
    · obtain ⟨⟨n, rest⟩, hn, heq⟩ := Option.map_eq_some_iff.mp h
      obtain ⟨rfl, -⟩ := Prod.mk.inj heq
      have := readOffsetTime_lt hn
      omega
    · obtain ⟨⟨n, rest⟩, hn, heq⟩ := Option.map_eq_some_iff.mp h
      obtain ⟨rfl, -⟩ := Prod.mk.inj heq
      have := readOffsetTime_lt hn
      omega

/-- What the fields of a text are. -/
theorem readFields_spec {cs : List Char} {date : Date} {clock : Nat × Nat × Nat} {nanos : Nat}
    {offset : Int} (h : readFields cs = some (date, clock, nanos, offset)) :
    date.year < 10000 ∧ nanos < nanosPerSecond ∧ -1440 < offset ∧ offset < 1440 := by
  simp only [readFields, Option.bind_eq_bind, Option.bind_eq_some_iff] at h
  obtain ⟨⟨date, cs₁⟩, hdate, cs₂, -, ⟨clock, cs₃⟩, -, ⟨nanos, cs₄⟩, hnanos, ⟨offset, cs₅⟩,
    hoffset, h⟩ := h
  split at h
  · cases h
    exact ⟨readDate_year hdate, readFraction_lt hnanos, readOffset_lt hoffset⟩
  · cases h

/-- The local time of an instant is on its date. -/
theorem instant_local {date : Date} {hour minute second nanos : Nat} {offset t : Int}
    (hnanos : nanos < nanosPerSecond)
    (h : instant date hour minute second nanos offset = some t) :
    date.Valid ∧ (t + nanosPerMinute * offset) / nanosPerDay = dayOf date := by
  simp only [instant] at h
  generalize (if second = 60 then 59 else second) = second' at h
  have hnanos' : (if second = 60 then nanosPerSecond - 1 else nanos) < nanosPerSecond := by
    split
    · decide
    · exact hnanos
  generalize (if second = 60 then nanosPerSecond - 1 else nanos) = nanos' at h hnanos'
  split at h
  · cases h
  · next hok =>
    simp only [not_or, not_not, Nat.not_le] at hok
    obtain ⟨hdate, hhour, hminute, hsecond⟩ := hok
    split at h
    · cases h
    · obtain rfl := Option.some.inj h
      refine ⟨hdate, ?_⟩
      generalize dayOf date = day
      simp only [nanosPerDay, nanosPerHour, nanosPerMinute, nanosPerSecond] at hnanos' ⊢
      omega

/-- A number is read back in front of any text. -/
theorem readFixed_ten {w n : Nat} (h : n < 10 ^ w) (rest : List Char) :
    readFixed 10 w (numeral 10 w n ++ rest) = some (n, rest) :=
  readFixed_numeral (by decide) (by decide) h rest

theorem readDate_format {date : Date} (hyear : date.year < 10 ^ 4) (hmonth : date.month < 10 ^ 2)
    (hday : date.day < 10 ^ 2) (rest : List Char) :
    readDate (formatDate date ++ rest) = some (date, rest) := by
  simp only [readDate, formatDate, List.append_assoc, List.cons_append, readFixed_ten hyear,
    readFixed_ten hmonth, readFixed_ten hday, expect_cons, Option.bind_eq_bind, Option.bind_some]

theorem readClock_format {hour minute second : Nat} (hhour : hour < 10 ^ 2)
    (hminute : minute < 10 ^ 2) (hsecond : second < 10 ^ 2) (rest : List Char) :
    readClock (formatClock hour minute second ++ rest) = some ((hour, minute, second), rest) := by
  simp only [readClock, formatClock, List.append_assoc, List.cons_append, readFixed_ten hhour,
    readFixed_ten hminute, readFixed_ten hsecond, expect_cons, Option.bind_eq_bind,
    Option.bind_some]

theorem readFraction_numeral {n : Nat} (h : n < 10 ^ 9) (rest : List Char) :
    readFraction ('.' :: (numeral 10 9 n ++ 'Z' :: rest)) = some (n, 'Z' :: rest) := by
  have hdigits : ∀ c ∈ numeral 10 9 n, c.isDigit = true := by
    intro c hc
    obtain ⟨d, hd, rfl⟩ := mem_numeral (by decide) hc
    have key : ∀ d : Fin 10, d.val.digitChar.isDigit = true := by decide
    exact key ⟨d, hd⟩
  have htake : (numeral 10 9 n ++ 'Z' :: rest).takeWhile Char.isDigit = numeral 10 9 n := by
    rw [List.takeWhile_append_of_pos hdigits]
    simp
  have hdrop : (numeral 10 9 n ++ 'Z' :: rest).dropWhile Char.isDigit = 'Z' :: rest := by
    rw [List.dropWhile_append_of_pos hdigits]
    simp
  have hpad : (numeral 10 9 n ++ List.replicate 9 '0').take 9 = numeral 10 9 n := by
    rw [List.take_append_of_le_length (by simp), List.take_of_length_le (by simp)]
  have hne : (numeral 10 9 n).isEmpty = false := by
    rw [List.isEmpty_eq_false_iff_exists_mem]
    exact ⟨(n % 10).digitChar, by rw [numeral]; exact List.mem_append_right _ List.mem_cons_self⟩
  rw [readFraction, expect_cons]
  simp only [htake, hdrop, hpad, hne, Bool.false_eq_true, if_false]
  rw [readNumeral_numeral (by decide) (by decide) h]
  rfl

/-- The parts of a day add up to the instant. -/
theorem parts_eq (t : Nat) : nanosPerDay * (t / nanosPerDay) +
    nanosPerHour * (t % nanosPerDay / nanosPerHour) +
    nanosPerMinute * (t % nanosPerHour / nanosPerMinute) +
    nanosPerSecond * (t % nanosPerMinute / nanosPerSecond) + t % nanosPerSecond = t := by
  simp only [nanosPerDay, nanosPerHour, nanosPerMinute, nanosPerSecond]
  omega

/-- A valid date and a time of day, in UTC. -/
theorem instant_utc {date : Date} {hour minute second nanos : Nat} (hdate : date.Valid)
    (hhour : hour < 24) (hminute : minute < 60) (hsecond : second < 60) :
    instant date hour minute second nanos 0 =
      some ((nanosPerDay * dayOf date + nanosPerHour * hour + nanosPerMinute * minute +
        nanosPerSecond * second + nanos : Nat) : Int) := by
  have hleap : ¬second = 60 := by omega
  have hok : ¬(¬date.Valid ∨ 24 ≤ hour ∨ 60 ≤ minute ∨ 60 ≤ second) := by
    simp only [hdate, not_true_eq_false, false_or, not_or, Nat.not_le]
    exact ⟨hhour, hminute, hsecond⟩
  simp only [instant, hleap, if_false, false_and, hok, Int.mul_zero, Int.sub_zero]

/-- A text is read part by part. -/
theorem parse_of_parts {cs cs₁ cs₂ cs₃ : List Char} {c : Char} {date : Date}
    {hour minute second nanos : Nat} {o : Int} (hdate : readDate cs = some (date, c :: cs₁))
    (hseparator : c.toNat < 0x80)
    (hclock : readClock cs₁ = some ((hour, minute, second), cs₂))
    (hfraction : readFraction cs₂ = some (nanos, cs₃)) (hoffset : readOffset cs₃ = some (o, [])) :
    parse cs = instant date hour minute second nanos o := by
  simp only [parse, readFields, readSeparator, hdate, hseparator, hclock, hfraction, hoffset,
    Option.bind_eq_bind, Option.bind_some, if_true]

/-- **The reader undoes the writer** up to the year 9999. -/
theorem parse_format {t : Nat} (h : t < nanosPerDay * 3652425) :
    parse (format t) = some (t : Int) := by
  have hday : t / nanosPerDay < 3652425 := Nat.div_lt_of_lt_mul h
  have hvalid := dateOf_valid (t / nanosPerDay)
  have hyear : (dateOf (t / nanosPerDay)).year < 10 ^ 4 := dateOf_year hday
  have hmonth : (dateOf (t / nanosPerDay)).month < 10 ^ 2 := by
    have := hvalid.month_le
    omega
  have hdate : (dateOf (t / nanosPerDay)).day < 10 ^ 2 := by
    have := Nat.le_trans hvalid.day_le (daysInMonth_le _ _)
    omega
  have hhour : t % nanosPerDay / nanosPerHour < 24 := by
    simp only [nanosPerDay, nanosPerHour]
    omega
  have hminute : t % nanosPerHour / nanosPerMinute < 60 := by
    simp only [nanosPerMinute, nanosPerHour]
    omega
  have hsecond : t % nanosPerMinute / nanosPerSecond < 60 := by
    simp only [nanosPerMinute, nanosPerSecond]
    omega
  have hnanos : t % nanosPerSecond < 10 ^ 9 := Nat.mod_lt _ (by decide)
  have hparse : parse (format t) = instant (dateOf (t / nanosPerDay))
      (t % nanosPerDay / nanosPerHour) (t % nanosPerHour / nanosPerMinute)
      (t % nanosPerMinute / nanosPerSecond) (t % nanosPerSecond) 0 :=
    parse_of_parts (readDate_format hyear hmonth hdate _) (by decide)
      (readClock_format (Nat.lt_trans hhour (by decide)) (Nat.lt_trans hminute (by decide))
        (Nat.lt_trans hsecond (by decide)) _)
      (readFraction_numeral hnanos []) rfl
  rw [hparse, instant_utc hvalid hhour hminute hsecond, dayOf_dateOf, parts_eq]

end CodingAgent.Rfc3339
