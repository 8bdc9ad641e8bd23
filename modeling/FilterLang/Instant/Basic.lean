import FilterLang.Text.Digits
import FilterLang.Instant.Calendar

namespace FilterLang

/-!
# Instant — points in time

* `Instant` — seconds since 1 January 1970 in UTC, and nanoseconds. A leap second shares the number
  of the second before it, and has a thousand million nanoseconds or more.
* `TimeOfDay` — hour, minute, second and nanoseconds; `TimeOfDay.of?` accepts second 60 at any
  minute.
* `Instant.atTime` — the instant of a time on a day.
* `Instant.truncated` — without what is smaller than a millisecond.
* `Instant.iso` — `2024-01-05T12:30:00.000Z`.
-/

/-- The nanoseconds of one second. -/
def nanosPerSecond : Nat := 1000000000

/-- A time of day in UTC. A leap second is second 59 with `nanosPerSecond` or more nanoseconds. -/
structure TimeOfDay where
  hour : Nat
  minute : Nat
  second : Nat
  nanos : Nat
deriving DecidableEq, Repr

namespace TimeOfDay

/-- The time of day that a clock shows, if there is one. -/
def of? (hour minute second nanos : Nat) : Option TimeOfDay :=
  if hour < 24 ∧ minute < 60 ∧ second < 60 then some ⟨hour, minute, second, nanos⟩
  else if hour < 24 ∧ minute < 60 ∧ second = 60 then
    some ⟨hour, minute, 59, nanos + nanosPerSecond⟩
  else none

/-- The seconds since midnight. -/
def seconds (t : TimeOfDay) : Nat := t.hour * 3600 + t.minute * 60 + t.second

end TimeOfDay

/-- A point in time. -/
structure Instant where
  /-- Seconds since the start of 1970 in UTC. -/
  seconds : Int
  /-- Nanoseconds of that second, and of the leap second after it. -/
  nanos : Nat
deriving DecidableEq, Repr

namespace Instant

/-- A time on a day, in UTC. -/
def atTime (day : Day) (time : TimeOfDay) : Instant :=
  ⟨day.number * 86400 + time.seconds, time.nanos⟩

/-- The day on which an instant lies. -/
def day (i : Instant) : Day := .ofNumber (i.seconds / 86400)

/-- The time of its day at which an instant lies. -/
def time (i : Instant) : TimeOfDay :=
  let s := (i.seconds % 86400).toNat
  ⟨s / 3600, s / 60 % 60, s % 60, i.nanos⟩

/-- The same instant `minutes` later. -/
def addMinutes (i : Instant) (minutes : Int) : Instant := ⟨i.seconds + 60 * minutes, i.nanos⟩

/-- The instant without what is smaller than a millisecond; that is always a step back in time. -/
def truncated (i : Instant) : Instant := ⟨i.seconds, i.nanos - i.nanos % 1000000⟩

/-- Whether an instant is a whole number of milliseconds. -/
def IsWholeMillis (i : Instant) : Prop := i.nanos % 1000000 = 0

instance (i : Instant) : Decidable i.IsWholeMillis := inferInstanceAs (Decidable (_ = _))

theorem isWholeMillis_truncated (i : Instant) : i.truncated.IsWholeMillis := by
  simp only [IsWholeMillis, truncated]; omega

theorem truncated_eq_self {i : Instant} (h : i.IsWholeMillis) : i.truncated = i := by
  simp only [IsWholeMillis] at h; simp [truncated, h]

/-! ### Written form -/

/-- A year: four digits from year 0 to 9999, and else a sign and four digits at least. -/
def yearText (year : Int) : List Char :=
  if 0 ≤ year ∧ year ≤ 9999 then padded 4 year.natAbs
  else (if 0 ≤ year then '+' else '-') :: padded 4 year.natAbs

/-- The ISO 8601 form in UTC, to the millisecond. A leap second is written as second 60. -/
def iso (i : Instant) : List Char :=
  let time := i.time
  let second := if nanosPerSecond ≤ i.nanos then time.second + 1 else time.second
  yearText i.day.year ++ '-' :: padded 2 i.day.month ++ '-' :: padded 2 i.day.day ++
    'T' :: padded 2 time.hour ++ ':' :: padded 2 time.minute ++ ':' :: padded 2 second ++
    '.' :: padded 3 (i.nanos % nanosPerSecond / 1000000) ++ ['Z']

end Instant

end FilterLang
