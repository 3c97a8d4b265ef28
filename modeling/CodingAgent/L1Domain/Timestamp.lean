import CodingAgent.L1Domain.Serde

/-!
# The conversion before the year check (`UtcTimestamp::new`)

`UtcTimestamp::new` converts its `OffsetDateTime` to UTC and checks the year
afterwards (`crates/coding-agent-domain/src/value.rs:80-93`). The dates of
`time` are those of the years `-9999..=9999` and `to_offset` panics when the
converted date is not one of them, so a local time in the last hours of the
year 9999 with an offset behind UTC ends the caller instead of being refused.
`OffsetDateTime::parse` is a parameter of the readers; `OffsetDateTime.parse`
is the reader of RFC 3339 texts it stands for.

* `parseRfc3339_eq`: off that case the reader is the one the rest of the model
  uses.
* `timestamp_checked_iff`: the constructor and the three readers answer as the
  year check says exactly on the values whose conversion is a date.
-/
namespace CodingAgent.L1.Domain
open Rfc3339 Serde

/-- What a call does: it returns or it panics. -/
inductive Outcome (α : Type) where
  | returned (value : α)
  | panicked
  deriving DecidableEq, Repr

/-- The year of an instant counted in nanoseconds from 0000-01-01. -/
def yearAt (t : Int) : Int := yearOfDay (t / nanosPerDay)

/-- The dates `time::Date` can hold. -/
def IsDate (t : Int) : Prop := -9999 ≤ yearAt t ∧ yearAt t ≤ 9999

instance (t : Int) : Decidable (IsDate t) := inferInstanceAs (Decidable (_ ∧ _))

/-- The largest `UtcOffset`, 25:59:59. -/
def maxOffset : Int := 93599

theorem zero_offset : -maxOffset ≤ 0 ∧ 0 ≤ maxOffset := by decide

/-- `time::OffsetDateTime`: a local date and time and the seconds it is ahead
of UTC. -/
structure OffsetDateTime where
  localTime : Int
  offset : Int
  isDate : IsDate localTime
  offset_ge : -maxOffset ≤ offset
  offset_le : offset ≤ maxOffset

namespace OffsetDateTime

def instant (value : OffsetDateTime) : Int := value.localTime - nanosPerSecond * value.offset

/-- The year of the local date. -/
def year (value : OffsetDateTime) : Int := yearAt value.localTime

/-- `value.to_offset(UtcOffset::UTC)` -/
def toOffsetUtc (value : OffsetDateTime) : Outcome OffsetDateTime :=
  if h : IsDate value.instant then .returned ⟨value.instant, 0, h, zero_offset.1, zero_offset.2⟩
  else .panicked

/-- `OffsetDateTime::parse(value, &Rfc3339)` -/
def parse (text : String) : Option OffsetDateTime :=
  match readFields text.toList with
  | some (date, (hour, minute, second), nanos, offset) =>
    match Rfc3339.instant date hour minute second nanos offset with
    | some t =>
      if h : IsDate (t + nanosPerMinute * offset) ∧ -maxOffset ≤ 60 * offset ∧
          60 * offset ≤ maxOffset then
        some ⟨t + nanosPerMinute * offset, 60 * offset, h.1, h.2.1, h.2.2⟩
      else none
    | none => none
  | none => none

end OffsetDateTime

/-- The years `0..=9999` are the instants of a `UtcTimestamp`. -/
theorem yearAt_mem_iff (t : Int) :
    (0 ≤ yearAt t ∧ yearAt t ≤ 9999) ↔ minNanos ≤ minNanos + t ∧ minNanos + t ≤ maxNanos := by
  rw [yearAt, yearOfDay_mem_iff]
  simp only [minNanos, maxNanos, nanosPerDay]
  omega

namespace UtcTimestamp.Conversion

/-- The year check, of a value in UTC. -/
def checkYear (value : OffsetDateTime) : Except DomainError UtcTimestamp :=
  if h : 0 ≤ value.year ∧ value.year ≤ 9999 then
    have h := (yearAt_mem_iff value.localTime).mp h
    .ok ⟨minNanos + value.localTime, h.1, h.2⟩
  else .error .invalidTimestamp

/-- mirrors crates/coding-agent-domain/src/value.rs:80-87 -/
def new (value : OffsetDateTime) : Outcome (Except DomainError UtcTimestamp) :=
  match value.toOffsetUtc with
  | .panicked => .panicked
  | .returned value => .returned (checkYear value)

section
variable (read : String → Option OffsetDateTime)

/-- mirrors crates/coding-agent-domain/src/value.rs:89-93 -/
def parseRfc3339 (value : String) : Outcome (Except DomainError UtcTimestamp) :=
  match read value with
  | none => .returned (.error .invalidTimestamp)
  | some value => new value

/-- mirrors crates/coding-agent-domain/src/value.rs:100-106 -/
def fromStr (value : String) : Outcome (Except DomainError UtcTimestamp) :=
  parseRfc3339 read value

/-- The errors of `deserialize`. -/
inductive DeserializeError where
  | invalidType
  | custom (error : DomainError)
  deriving DecidableEq, Repr

/-- mirrors crates/coding-agent-domain/src/value.rs:127-135 -/
def deserialize : Json → Outcome (Except DeserializeError UtcTimestamp)
  | .string value =>
    match parseRfc3339 read value with
    | .panicked => .panicked
    | .returned result => .returned (result.mapError .custom)
  | _ => .returned (.error .invalidType)

/-! ## What is asked of them -/

/-- The answer for a value: no panic, its own instant when the UTC year has
four digits and the error otherwise. -/
def Checked {ε : Type} (refused : ε) (value : OffsetDateTime)
    (outcome : Outcome (Except ε UtcTimestamp)) : Prop :=
  if 0 ≤ yearAt value.instant ∧ yearAt value.instant ≤ 9999 then
    ∃ timestamp, outcome = .returned (.ok timestamp) ∧
      timestamp.nanos = minNanos + value.instant
  else outcome = .returned (.error refused)

/-- The answer for a text: that for the value it is read as, or the error. -/
def TextChecked {ε : Type} (refused : ε) (text : String)
    (outcome : Outcome (Except ε UtcTimestamp)) : Prop :=
  match read text with
  | some value => Checked refused value outcome
  | none => outcome = .returned (.error refused)

/-- No value a text is read as leaves the dates when it is converted. -/
def Converts (text : String) : Prop := ∀ value, read text = some value → IsDate value.instant

end

theorem not_checked_panicked {ε : Type} (refused : ε) (value : OffsetDateTime) :
    ¬Checked refused value .panicked := by
  rw [Checked]
  split
  · rintro ⟨timestamp, h, -⟩
    cases h
  · exact fun h => by cases h

theorem checkYear_eq (value : OffsetDateTime) :
    checkYear value = UtcTimestamp.new (minNanos + value.localTime) := by
  by_cases hyear : 0 ≤ value.year ∧ value.year ≤ 9999
  · rw [checkYear, UtcTimestamp.new, dif_pos hyear, dif_pos ((yearAt_mem_iff _).mp hyear)]
  · rw [checkYear, UtcTimestamp.new, dif_neg hyear,
      dif_neg (fun h => hyear ((yearAt_mem_iff _).mpr h))]

/-- Off the panic the constructor is that of the instant. -/
theorem new_of_isDate {value : OffsetDateTime} (h : IsDate value.instant) :
    new value = .returned (UtcTimestamp.new (minNanos + value.instant)) := by
  have hconvert : value.toOffsetUtc =
      .returned ⟨value.instant, 0, h, zero_offset.1, zero_offset.2⟩ := dif_pos h
  rw [new, hconvert]
  exact congrArg Outcome.returned (checkYear_eq _)

theorem new_of_not_isDate {value : OffsetDateTime} (h : ¬IsDate value.instant) :
    new value = .panicked := by
  have hconvert : value.toOffsetUtc = .panicked := dif_neg h
  rw [new, hconvert]

theorem checked_new {ε : Type} (refused : ε) (value : OffsetDateTime) (wrap : DomainError → ε)
    (hwrap : wrap .invalidTimestamp = refused) :
    Checked refused value
      (.returned ((UtcTimestamp.new (minNanos + value.instant)).mapError wrap)) := by
  rw [Checked, UtcTimestamp.new]
  by_cases hyear : 0 ≤ yearAt value.instant ∧ yearAt value.instant ≤ 9999
  · rw [if_pos hyear, dif_pos ((yearAt_mem_iff _).mp hyear)]
    exact ⟨_, rfl, rfl⟩
  · rw [if_neg hyear, dif_neg (fun h => hyear ((yearAt_mem_iff _).mpr h)), ← hwrap]
    rfl

theorem mapError_id (result : Except DomainError UtcTimestamp) :
    result.mapError id = result := by
  cases result <;> rfl

theorem new_checked_iff (value : OffsetDateTime) :
    Checked .invalidTimestamp value (new value) ↔ IsDate value.instant := by
  by_cases h : IsDate value.instant
  · have hchecked := checked_new DomainError.invalidTimestamp value id rfl
    rw [mapError_id] at hchecked
    rw [new_of_isDate h]
    exact iff_of_true hchecked h
  · rw [new_of_not_isDate h]
    exact iff_of_false (not_checked_panicked _ value) h

theorem parseRfc3339_of_some {read : String → Option OffsetDateTime} {text : String}
    {value : OffsetDateTime} (h : read text = some value) :
    parseRfc3339 read text = new value := by
  rw [parseRfc3339, h]

theorem deserialize_of_returned {read : String → Option OffsetDateTime} {text : String}
    {result : Except DomainError UtcTimestamp} (h : parseRfc3339 read text = .returned result) :
    deserialize read (.string text) = .returned (result.mapError .custom) := by
  rw [deserialize, h]

theorem parseRfc3339_checked_iff (read : String → Option OffsetDateTime) (text : String) :
    TextChecked read .invalidTimestamp text (parseRfc3339 read text) ↔ Converts read text := by
  rw [TextChecked, parseRfc3339]
  cases hread : read text with
  | none => exact iff_of_true rfl (fun value h => by rw [hread] at h; cases h)
  | some value =>
    show Checked _ value (new value) ↔ _
    rw [new_checked_iff]
    constructor
    · intro h other hother
      rw [hread] at hother
      cases hother
      exact h
    · exact fun h => h value hread

theorem deserialize_checked_iff (read : String → Option OffsetDateTime) (text : String) :
    TextChecked read (.custom .invalidTimestamp) text (deserialize read (.string text)) ↔
      Converts read text := by
  rw [← parseRfc3339_checked_iff, TextChecked, TextChecked, deserialize]
  cases hread : read text with
  | none =>
    rw [parseRfc3339, hread]
    exact iff_of_true rfl rfl
  | some value =>
    rw [parseRfc3339_of_some hread]
    show Checked _ value _ ↔ Checked _ value (new value)
    rw [new_checked_iff]
    by_cases h : IsDate value.instant
    · rw [new_of_isDate h]
      exact iff_of_true (checked_new _ value DeserializeError.custom rfl) h
    · rw [new_of_not_isDate h]
      exact iff_of_false (not_checked_panicked _ value) h

/-- **Timestamps are checked exactly where the conversion is a date.** Whatever
`OffsetDateTime::parse` reads, `new`, `parse_rfc3339`, `from_str` and
`deserialize` return the same instant when its UTC year has four digits and an
error otherwise, never panicking, if and only if the year in UTC is in
`-9999..=9999`. -/
theorem timestamp_checked_iff (read : String → Option OffsetDateTime) :
    (∀ value, Checked .invalidTimestamp value (new value) ↔ IsDate value.instant) ∧
    ∀ text,
      (TextChecked read .invalidTimestamp text (parseRfc3339 read text) ↔ Converts read text) ∧
      (TextChecked read .invalidTimestamp text (fromStr read text) ↔ Converts read text) ∧
      (TextChecked read (.custom .invalidTimestamp) text (deserialize read (.string text)) ↔
        Converts read text) :=
  ⟨new_checked_iff, fun text => ⟨parseRfc3339_checked_iff read text,
    parseRfc3339_checked_iff read text, deserialize_checked_iff read text⟩⟩

/-- The last second of the year 9999, one minute behind UTC. -/
theorem parseRfc3339_last_second :
    parseRfc3339 OffsetDateTime.parse "9999-12-31T23:59:59-00:01" = .panicked ∧
    ¬∀ text, TextChecked OffsetDateTime.parse .invalidTimestamp text
      (parseRfc3339 OffsetDateTime.parse text) := by
  have hpanic : parseRfc3339 OffsetDateTime.parse "9999-12-31T23:59:59-00:01" = .panicked := by
    decide +kernel
  refine ⟨hpanic, fun h => ?_⟩
  have hchecked := h "9999-12-31T23:59:59-00:01"
  rw [hpanic, TextChecked] at hchecked
  split at hchecked
  · exact not_checked_panicked _ _ hchecked
  · cases hchecked

/-! ## The reader of RFC 3339 texts -/

/-- The local date of a text is a date, and its offset is one. -/
theorem parse_eq_some {text : String} {t : Int} (h : Rfc3339.parse text.toList = some t) :
    ∃ value, OffsetDateTime.parse text = some value ∧ value.instant = t ∧
      -nanosPerDay ≤ t := by
  rw [Rfc3339.parse, Option.bind_eq_bind, Option.bind_eq_some_iff] at h
  obtain ⟨⟨date, ⟨hour, minute, second⟩, nanos, offset⟩, hfields, hinstant⟩ := h
  obtain ⟨hyear, hnanos, hge, hle⟩ := readFields_spec hfields
  obtain ⟨hdate, hday⟩ := instant_local hnanos hinstant
  have hlt := dayOf_lt hdate hyear
  have hisDate : IsDate (t + nanosPerMinute * offset) := by
    have hmem := (yearOfDay_mem_iff (dayOf date)).mpr (by omega)
    rw [IsDate, yearAt, hday]
    omega
  have hoffset : -maxOffset ≤ 60 * offset ∧ 60 * offset ≤ maxOffset := by
    simp only [maxOffset]
    omega
  refine ⟨⟨_, _, hisDate, hoffset.1, hoffset.2⟩, ?_, ?_, ?_⟩
  · simp only [OffsetDateTime.parse, hfields, hinstant]
    exact dif_pos ⟨hisDate, hoffset⟩
  · simp only [OffsetDateTime.instant, nanosPerMinute, nanosPerSecond]
    omega
  · simp only [nanosPerDay, nanosPerMinute] at hday ⊢
    omega

theorem parse_eq_none {text : String} (h : Rfc3339.parse text.toList = none) :
    OffsetDateTime.parse text = none := by
  rw [Rfc3339.parse, Option.bind_eq_bind, Option.bind_eq_none_iff] at h
  simp only [OffsetDateTime.parse]
  split
  · next date hour minute second nanos offset hfields =>
    have hinstant := h _ hfields
    simp only at hinstant
    rw [hinstant]
  · rfl

/-- **Off the panic the reader is the one of the rest of the model.** A text of
an instant before the year 10000 is read as `UtcTimestamp.parseRfc3339` reads
it. -/
theorem parseRfc3339_eq {text : String}
    (h : ∀ t, Rfc3339.parse text.toList = some t → t < nanosPerDay * 3652425) :
    parseRfc3339 OffsetDateTime.parse text = .returned (UtcTimestamp.parseRfc3339 text) := by
  cases hparse : Rfc3339.parse text.toList with
  | none => rw [parseRfc3339, parse_eq_none hparse, UtcTimestamp.parseRfc3339, hparse]
  | some t =>
    obtain ⟨value, hvalue, hinstant, hge⟩ := parse_eq_some hparse
    have hlt := h t hparse
    have hisDate : IsDate value.instant := by
      rw [hinstant, IsDate, yearAt]
      exact yearOfDay_range (by simp only [nanosPerDay] at hge ⊢; omega)
        (by simp only [nanosPerDay] at hlt ⊢; omega)
    rw [parseRfc3339_of_some hvalue, new_of_isDate hisDate, hinstant,
      UtcTimestamp.parseRfc3339_of_parse hparse]

end UtcTimestamp.Conversion
end CodingAgent.L1.Domain
