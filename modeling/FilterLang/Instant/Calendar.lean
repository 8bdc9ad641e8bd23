namespace FilterLang

/-!
# Instant — the calendar

Days of the Gregorian calendar, extended to all years; year 0 comes before year 1.

* `Day` — a year, a month and a day of the month; `Day.Exists` says that the calendar has it.
* `Day.number` — the days since 1 January 1970, and `Day.ofNumber` back again: `number_ofNumber`
  and `ofNumber_number` say that these are inverse. Both count from 1 March of year 0, so that a
  leap day is the last day of its year.
-/

/-- A year, a month from 1 and a day of the month from 1. -/
structure Day where
  year : Int
  month : Nat
  day : Nat
deriving DecidableEq, Repr

/-- Whether a year has 366 days. -/
def isLeapYear (year : Int) : Bool := year % 4 = 0 && (year % 100 ≠ 0 || year % 400 = 0)

/-- The number of days in a month. -/
def daysInMonth (year : Int) (month : Nat) : Nat :=
  if month = 2 then (if isLeapYear year then 29 else 28)
  else if month = 4 ∨ month = 6 ∨ month = 9 ∨ month = 11 then 30
  else 31

namespace Day

/-- The first and the last year in which a day can lie. -/
def firstYear : Int := -262143
@[inherit_doc firstYear] def lastYear : Int := 262142

/-- Whether the calendar has the day. -/
def Exists (d : Day) : Prop :=
  (firstYear ≤ d.year ∧ d.year ≤ lastYear) ∧ (1 ≤ d.month ∧ d.month ≤ 12) ∧
    1 ≤ d.day ∧ d.day ≤ daysInMonth d.year d.month

instance (d : Day) : Decidable d.Exists := inferInstanceAs (Decidable (_ ∧ _))

/-! ### Days in a row -/

/-- The number of days from 1 March of year 0 to 1 January 1970. -/
def epoch : Int := 719468

/-- The number of days from 1 March of year 0 to 1 March of a year. -/
def yearStart (year : Int) : Int := 365 * year + year / 4 - year / 100 + year / 400

/-- The number of days before the first of a month, counted from March, the month 0. -/
def beforeMonth (month : Int) : Int := (153 * month + 2) / 5

/-- The number of days from 1 January 1970 to a day. -/
def number (d : Day) : Int :=
  let year := if d.month ≤ 2 then d.year - 1 else d.year
  let month := if d.month ≤ 2 then (d.month : Int) + 9 else d.month - 3
  yearStart year + beforeMonth month + (d.day - 1) - epoch

/-- The year whose days from March on hold the day that lies `days` after 1 March of year 0: first
the place in a cycle of 400 years, then in its centuries, in their cycles of four years and in the
years. The last century and the last year of a cycle are a day longer. -/
def marchYear (days : Int) : Int :=
  let inCycle := days % 146097
  let century := min (inCycle / 36524) 3
  let inCentury := inCycle - 36524 * century
  400 * (days / 146097) + 100 * century + 4 * (inCentury / 1461) +
    min (inCentury % 1461 / 365) 3

/-- The day that lies `n` days after 1 January 1970. -/
def ofNumber (n : Int) : Day :=
  let year := marchYear (n + epoch)
  let inYear := n + epoch - yearStart year
  let month := (5 * inYear + 2) / 153
  { year := if month < 10 then year else year + 1
    month := (if month < 10 then month + 3 else month - 9).toNat
    day := (inYear - beforeMonth month + 1).toNat }

example : (⟨1970, 1, 1⟩ : Day).number = 0 ∧ ofNumber 0 = ⟨1970, 1, 1⟩ := by decide
example : ofNumber (-719528) = ⟨0, 1, 1⟩ ∧ ofNumber 11016 = ⟨2000, 2, 29⟩ := by decide

/-! ### Each day has its number -/

/-- The calendar repeats itself after 400 years, which have 146097 days. -/
theorem yearStart_add_cycles (cycles year : Int) :
    yearStart (400 * cycles + year) = 146097 * cycles + yearStart year := by
  simp only [yearStart]
  omega

/-- So does the year that a day belongs to. -/
theorem marchYear_add_cycles (cycles days : Int) :
    marchYear (146097 * cycles + days) = 400 * cycles + marchYear days := by
  have hdiv : (146097 * cycles + days) / 146097 = cycles + days / 146097 := by omega
  have hmod : (146097 * cycles + days) % 146097 = days % 146097 := by omega
  simp only [marchYear, hdiv, hmod]
  omega

/-- Later years start later. -/
theorem yearStart_mono {a b : Int} (h : a ≤ b) : yearStart a ≤ yearStart b := by
  simp only [yearStart]
  omega

/-- Within the first cycle, a day lies between the start of its year and that of the next. -/
theorem yearStart_marchYear_of_lt {days : Int} (h0 : 0 ≤ days) (h1 : days < 146097) :
    yearStart (marchYear days) ≤ days ∧ days < yearStart (marchYear days + 1) := by
  have hmod : days % 146097 = days := by omega
  have hdiv : days / 146097 = 0 := by omega
  simp only [marchYear, hmod, hdiv]
  generalize hk : min (days / 36524) 3 = century
  generalize hi : days - 36524 * century = inCentury
  generalize hf : inCentury / 1461 = four
  generalize hr : inCentury % 1461 = inFour
  generalize ho : min (inFour / 365) 3 = one
  have k : 0 ≤ century ∧ century ≤ 3 := by omega
  have i : 0 ≤ inCentury ∧ inCentury ≤ 36524 ∧ (century < 3 → inCentury < 36524) := by omega
  have parts : inCentury = 1461 * four + inFour ∧ 0 ≤ inFour ∧ inFour < 1461 := by omega
  have f : 0 ≤ four ∧ four ≤ 24 := by omega
  have o : 0 ≤ one ∧ one ≤ 3 ∧ 365 * one ≤ inFour ∧ inFour ≤ 365 * one + 365 ∧
      (one < 3 → inFour < 365 * one + 365) := by omega
  have sum : days = 36524 * century + 1461 * four + inFour := by omega
  clear hk hi hf hr ho hmod hdiv h0 h1
  have d4 : (400 * 0 + 100 * century + 4 * four + one) / 4 = 25 * century + four := by omega
  have d100 : (400 * 0 + 100 * century + 4 * four + one) / 100 = century := by omega
  have d400 : (400 * 0 + 100 * century + 4 * four + one) / 400 = 0 := by omega
  simp only [yearStart, d4, d100, d400]
  refine ⟨by omega, ?_⟩
  -- the next year starts a cycle of four, a century or a cycle of 400 years, or none of these
  by_cases last : one = 3
  · subst last
    by_cases lastFour : four = 24
    · subst lastFour
      by_cases lastCentury : century = 3
      · subst lastCentury; omega
      · omega
    · have n4 : (400 * 0 + 100 * century + 4 * four + 3 + 1) / 4 = 25 * century + four + 1 := by
        omega
      have n100 : (400 * 0 + 100 * century + 4 * four + 3 + 1) / 100 = century := by omega
      have n400 : (400 * 0 + 100 * century + 4 * four + 3 + 1) / 400 = 0 := by omega
      omega
  · have n4 : (400 * 0 + 100 * century + 4 * four + one + 1) / 4 = 25 * century + four := by omega
    have n100 : (400 * 0 + 100 * century + 4 * four + one + 1) / 100 = century := by omega
    have n400 : (400 * 0 + 100 * century + 4 * four + one + 1) / 400 = 0 := by omega
    omega

/-- A day lies between the start of its year and that of the next. -/
theorem yearStart_marchYear (days : Int) :
    yearStart (marchYear days) ≤ days ∧ days < yearStart (marchYear days + 1) := by
  have sum : days = 146097 * (days / 146097) + days % 146097 := by omega
  obtain ⟨lower, upper⟩ := @yearStart_marchYear_of_lt (days % 146097) (by omega) (by omega)
  rw [sum, marchYear_add_cycles, Int.add_assoc, yearStart_add_cycles, yearStart_add_cycles]
  omega

/-- No other year holds the day. -/
theorem marchYear_eq {days year : Int} (lower : yearStart year ≤ days)
    (upper : days < yearStart (year + 1)) : marchYear days = year := by
  obtain ⟨lower', upper'⟩ := yearStart_marchYear days
  by_cases before : marchYear days < year
  · have := yearStart_mono (show marchYear days + 1 ≤ year by omega)
    omega
  · by_cases after : year < marchYear days
    · have := yearStart_mono (show year + 1 ≤ marchYear days by omega)
      omega
    · omega

/-- The day with a number has this number. -/
@[simp] theorem number_ofNumber (n : Int) : (ofNumber n).number = n := by
  obtain ⟨lower, upper⟩ := yearStart_marchYear (n + epoch)
  simp only [ofNumber]
  generalize marchYear (n + epoch) = year at *
  have length : yearStart (year + 1) ≤ yearStart year + 366 := by simp only [yearStart]; omega
  generalize hi : n + epoch - yearStart year = inYear
  generalize hm : (5 * inYear + 2) / 153 = month
  have m : 0 ≤ month ∧ month ≤ 11 := by omega
  have start : beforeMonth month ≤ inYear := by simp only [beforeMonth]; omega
  -- Months count from March, so January and February fall into the next calendar year.
  by_cases early : month < 10
  · have notEarly : ¬(month + 3).toNat ≤ 2 := by omega
    have back : (((month + 3).toNat : Int) - 3) = month := by omega
    simp only [number, early, if_true, notEarly, if_false, back]
    omega
  · have isEarly : (month - 9).toNat ≤ 2 := by omega
    have back : (((month - 9).toNat : Int) + 9) = month := by omega
    have year' : year + 1 - 1 = year := by omega
    simp only [number, early, if_false, isEarly, if_true, back, year']
    omega

/-- The year from March on that ends in a leap year's February has 366 days. -/
theorem yearStart_succ (year : Int) :
    yearStart (year + 1) = yearStart year + if isLeapYear (year + 1) then 366 else 365 := by
  simp only [isLeapYear, yearStart, Bool.and_eq_true, Bool.or_eq_true, decide_eq_true_eq]
  split <;> omega

/-- A day of the calendar is found again by its number. -/
theorem ofNumber_number {d : Day} (h : d.Exists) : ofNumber d.number = d := by
  obtain ⟨year, month, day⟩ := d
  obtain ⟨-, ⟨m1, m12⟩, d1, dmax⟩ := h
  simp only at m1 m12 d1 dmax
  have months : month = 1 ∨ month = 2 ∨ month = 3 ∨ month = 4 ∨ month = 5 ∨ month = 6 ∨
      month = 7 ∨ month = 8 ∨ month = 9 ∨ month = 10 ∨ month = 11 ∨ month = 12 := by omega
  -- The inverse in terms of the year that starts in March, where the leap day comes last.
  have key (start month' : Int) (hnum : (⟨year, month, day⟩ : Day).number + epoch =
      yearStart start + beforeMonth month' + (day - 1))
      (hm : 0 ≤ month' ∧ month' ≤ 11)
      (hy : beforeMonth month' + (day - 1) < if isLeapYear (start + 1) then 366 else 365)
      (hd : beforeMonth month' + (day - 1) < beforeMonth (month' + 1)) :
      ofNumber (⟨year, month, day⟩ : Day).number =
        ⟨if month' < 10 then start else start + 1,
          (if month' < 10 then month' + 3 else month' - 9).toNat, day⟩ := by
    have nonneg : 0 ≤ beforeMonth month' := by simp only [beforeMonth]; omega
    have year' : marchYear ((⟨year, month, day⟩ : Day).number + epoch) = start := by
      apply marchYear_eq
      · omega
      · rw [yearStart_succ]; omega
    have inYear : (⟨year, month, day⟩ : Day).number + epoch - yearStart start =
        beforeMonth month' + (day - 1) := by omega
    have month'' : (5 * (beforeMonth month' + ((day : Int) - 1)) + 2) / 153 = month' := by
      simp only [beforeMonth] at hd ⊢
      omega
    simp only [ofNumber, year', inYear, month'']
    congr 1
    omega
  -- January and February are months 10 and 11 of the year that started in the March before.
  rcases months with rfl | rfl | late
  · have dmax : day ≤ 31 := dmax
    refine (key (year - 1) 10 ?_ (by omega) ?_ ?_).trans ?_
    · simp [number, beforeMonth]
    · simp only [beforeMonth]; split <;> omega
    · simp only [beforeMonth]; omega
    · simp
  · have dmax : day ≤ if isLeapYear year then 29 else 28 := dmax
    have next : year - 1 + 1 = year := by omega
    refine (key (year - 1) 11 ?_ (by omega) ?_ ?_).trans ?_
    · simp [number, beforeMonth]
    · rw [next]; simp only [beforeMonth]; split at dmax <;> simp_all <;> omega
    · simp only [beforeMonth]; split at dmax <;> omega
    · simp
  · have notEarly : ¬month ≤ 2 := by omega
    have length : beforeMonth ((month : Int) - 3) + day ≤ beforeMonth ((month : Int) - 3 + 1) := by
      rcases late with rfl | rfl | rfl | rfl | rfl | rfl | rfl | rfl | rfl | rfl <;>
        simp [daysInMonth, beforeMonth] at dmax ⊢ <;> omega
    have fits : beforeMonth ((month : Int) - 3 + 1) ≤ 337 := by simp only [beforeMonth]; omega
    refine (key year (month - 3) ?_ (by omega) ?_ (by omega)).trans ?_
    · simp [number, notEarly]
    · split <;> omega
    · have early' : (month : Int) - 3 < 10 := by omega
      simp [early']

end Day

end FilterLang
