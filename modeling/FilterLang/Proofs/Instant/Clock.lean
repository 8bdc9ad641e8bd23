import Mathlib.Tactic.ByContra
import FilterLang.Instant.Basic

namespace FilterLang

/-!
# Instant — days and times of the calendar

* `Day.exists_ofNumber` — every number of a day gives a day of the calendar, unless the year lies
  beyond the range of years.
* `TimeOfDay.IsOnClock`, `Instant.IsOnClock` — a time of day that a clock shows, and an instant that
  has a day and a time.
* `Instant.isOnClock_atTime`, `Instant.isOnClock_addMinutes` — which instants are such.
* `Instant.atTime_day_time` — an instant is the time of its day on its day.
-/

namespace Day

/-! ### Days of the calendar -/

/-- In the years that days can lie in, every number is that of a day. -/
theorem exists_ofNumber {n : Int} (h : firstYear ≤ (ofNumber n).year ∧ (ofNumber n).year ≤ lastYear) :
    (ofNumber n).Exists := by
  refine ⟨h, ?_⟩
  -- years are counted from March here, so that a leap day is the last day of its year
  obtain ⟨lower, upper⟩ := yearStart_marchYear (n + epoch)
  rw [yearStart_succ] at upper
  simp only [ofNumber] at h ⊢
  generalize marchYear (n + epoch) = year at *
  generalize hi : n + epoch - yearStart year = inYear
  generalize hm : (5 * inYear + 2) / 153 = month
  have inside : 0 ≤ inYear ∧ inYear < if isLeapYear (year + 1) then 366 else 365 := by omega
  have months : month = 0 ∨ month = 1 ∨ month = 2 ∨ month = 3 ∨ month = 4 ∨ month = 5 ∨
      month = 6 ∨ month = 7 ∨ month = 8 ∨ month = 9 ∨ month = 10 ∨ month = 11 := by
    split at inside <;> omega
  rcases months with rfl | rfl | rfl | rfl | rfl | rfl | rfl | rfl | rfl | rfl | rfl | rfl
  case inr.inr.inr.inr.inr.inr.inr.inr.inr.inr.inr =>
    -- February is the last month, and the only one that knows of leap years
    simp [daysInMonth, beforeMonth]
    split at inside <;> simp_all <;> omega
  all_goals
    simp [daysInMonth, beforeMonth]
    omega

/-- The year of a day that lies between the starts of two years. -/
theorem year_ofNumber {n a b : Int} (lower : yearStart a ≤ n + epoch)
    (upper : n + epoch < yearStart (b + 1)) :
    a ≤ (ofNumber n).year ∧ (ofNumber n).year ≤ b + 1 := by
  obtain ⟨start, next⟩ := yearStart_marchYear (n + epoch)
  -- a year starts after another one if its number is larger
  have above : a ≤ marchYear (n + epoch) := by
    by_contra before
    have := yearStart_mono (show marchYear (n + epoch) + 1 ≤ a by omega)
    omega
  have below : marchYear (n + epoch) ≤ b := by
    by_contra after
    have := yearStart_mono (show b + 1 ≤ marchYear (n + epoch) by omega)
    omega
  simp only [ofNumber]
  split <;> omega

end Day

/-- A time of day that a clock shows. Only the last second of a minute has a leap second after it. -/
structure TimeOfDay.IsOnClock (t : TimeOfDay) : Prop where
  hour : t.hour < 24
  minute : t.minute < 60
  second : t.second < 60
  nanos : t.nanos < 2 * nanosPerSecond
  leap : nanosPerSecond ≤ t.nanos → t.second = 59

namespace TimeOfDay

/-- What a clock shows is a time of day on the clock. -/
theorem isOnClock_of_of? {hour minute second nanos : Nat} {t : TimeOfDay}
    (h : of? hour minute second nanos = some t) (hn : nanos < nanosPerSecond) : t.IsOnClock := by
  have second : nanosPerSecond = 1000000000 := rfl
  unfold of? at h
  -- an ordinary second, or the sixtieth, which is stored as a second more of nanoseconds
  split at h
  · next range =>
    cases h
    exact ⟨range.1, range.2.1, range.2.2, show nanos < _ by omega,
      fun late => absurd hn (Nat.not_lt.2 late)⟩
  · split at h
    · next range =>
      cases h
      exact ⟨range.1, range.2.1, show 59 < 60 by omega, show nanos + _ < _ by omega, fun _ => rfl⟩
    · cases h

theorem IsOnClock.seconds_lt {t : TimeOfDay} (h : t.IsOnClock) : t.seconds < 86400 := by
  have := h.hour
  have := h.minute
  have := h.second
  simp only [seconds]
  omega

end TimeOfDay

namespace Instant

/-- An instant on a day of the calendar at a time that a clock shows. -/
structure IsOnClock (i : Instant) : Prop where
  day : i.day.Exists
  nanos : i.nanos < 2 * nanosPerSecond
  leap : nanosPerSecond ≤ i.nanos → i.seconds % 60 = 59

/-- An instant on the calendar that is a whole number of milliseconds: all that a date can say. -/
structure IsRegular (i : Instant) : Prop extends i.IsOnClock where
  millis : i.IsWholeMillis

/-- An instant on the clock is regular once it is cut to milliseconds. -/
theorem IsOnClock.isRegular_truncated {i : Instant} (h : i.IsOnClock) : i.truncated.IsRegular where
  day := h.day
  nanos := Nat.lt_of_le_of_lt (Nat.sub_le _ _) h.nanos
  leap late := h.leap (Nat.le_trans late (Nat.sub_le _ _))
  millis := isWholeMillis_truncated i

/-! ### Days and times make instants -/

/-- An instant is on the day that it was made of. -/
theorem day_atTime {d : Day} {t : TimeOfDay} (hd : d.Exists) (ht : t.IsOnClock) :
    (atTime d t).day = d := by
  have := ht.seconds_lt
  have number : (d.number * 86400 + (t.seconds : Int)) / 86400 = d.number := by omega
  rw [day, atTime, number, Day.ofNumber_number hd]

/-- What is asked of an instant besides its day does not change by minutes. -/
theorem isOnClock_of_seconds {d : Day} {t : TimeOfDay} (ht : t.IsOnClock) {m : Int}
    (h : ((atTime d t).addMinutes m).day.Exists) : ((atTime d t).addMinutes m).IsOnClock where
  day := h
  nanos := ht.nanos
  leap late := by
    have := ht.leap late
    simp only [addMinutes, atTime, TimeOfDay.seconds]
    omega

theorem addMinutes_zero (i : Instant) : i.addMinutes 0 = i := by simp [addMinutes]

/-- A day that exists and a time on the clock make an instant on the clock. -/
theorem isOnClock_atTime {d : Day} {t : TimeOfDay} (hd : d.Exists) (ht : t.IsOnClock) :
    (atTime d t).IsOnClock := by
  rw [← addMinutes_zero (atTime d t)]
  apply isOnClock_of_seconds ht
  rw [addMinutes_zero, day_atTime hd ht]
  exact hd

/-- In the years with four digits, an instant stays on the calendar when it moves by an offset. -/
theorem isOnClock_addMinutes {d : Day} {t : TimeOfDay} (hd : d.Exists) (ht : t.IsOnClock)
    (year : 0 ≤ d.year ∧ d.year ≤ 9999) {m : Int} (hm : -1440 < m ∧ m < 1440) :
    ((atTime d t).addMinutes m).IsOnClock := by
  refine isOnClock_of_seconds ht (Day.exists_ofNumber ?_)
  have time := ht.seconds_lt
  -- the offset is less than a day, and a day moves the year by one at most
  obtain ⟨start, next⟩ := Day.yearStart_marchYear (d.number + Day.epoch)
  have back := congrArg Day.year (Day.ofNumber_number hd)
  simp only [Day.ofNumber] at back
  have march : -1 ≤ Day.marchYear (d.number + Day.epoch) ∧
      Day.marchYear (d.number + Day.epoch) ≤ 9999 := by split at back <;> omega
  have low := Day.yearStart_mono march.1
  have high := Day.yearStart_mono (show Day.marchYear (d.number + Day.epoch) + 1 ≤ 10000 by omega)
  have first : Day.yearStart (-2) + 365 ≤ Day.yearStart (-1) := by decide
  have last : Day.yearStart 10000 + 365 ≤ Day.yearStart (10000 + 1) := by decide
  have near : d.number - 1 ≤ ((atTime d t).addMinutes m).seconds / 86400 ∧
      ((atTime d t).addMinutes m).seconds / 86400 ≤ d.number + 1 := by
    simp only [addMinutes, atTime]
    omega
  have bounds := @Day.year_ofNumber (((atTime d t).addMinutes m).seconds / 86400) (-2) 10000
    (by omega) (by omega)
  simp only [Day.firstYear, Day.lastYear]
  omega

/-! ### Instants have days and times -/

/-- An instant is made of its day and its time. -/
@[simp] theorem atTime_day_time (i : Instant) : atTime i.day i.time = i := by
  obtain ⟨seconds, nanos⟩ := i
  simp only [atTime, day, time, TimeOfDay.seconds, Day.number_ofNumber, mk.injEq, and_true]
  omega

end Instant

end FilterLang
