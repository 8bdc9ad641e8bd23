import FilterLang.Proofs.Instant.Readers

namespace FilterLang

/-!
# Instant — what is written reads back

Main statements:

* `Instant.ofRfc3339?_iso` — in the years with four digits, the ISO form of an instant is an
  RFC 3339 date that writes the same instant.
* `Instant.ofRfc3339?_iso_eq_error` — in all other years it is none.
* `Instant.ofLiteral?_of_ofRfc3339?` — an RFC 3339 date writes the same instant as a date literal.
* `Instant.ofLiteral?_iso` — as a date literal it writes the same instant in every year.
-/

/-! ### Digits -/

/-- A number that is filled up starts with a digit. -/
theorem exists_padded_eq_cons {width : Nat} (h : 0 < width) (n : Nat) :
    ∃ c rest, padded width n = c :: rest ∧ c.isDigit = true := by
  have long := le_length_padded width n
  obtain ⟨c, rest, hp⟩ := List.exists_cons_of_length_pos (show 0 < (padded width n).length by omega)
  exact ⟨c, rest, hp, isDigit_of_mem_padded (hp ▸ List.mem_cons_self)⟩

/-- A text has no blanks at its ends if neither its first nor its last character is one. -/
theorem trim_eq_self {first last : Char} {rest middle : List Char} (hf : isBlank first = false)
    (hl : isBlank last = false) (h : first :: rest = middle ++ [last]) :
    trim (first :: rest) = first :: rest := by
  rw [trim, trimStart_eq_self hf, h, List.reverse_append, List.reverse_singleton,
    List.singleton_append, trimStart_eq_self hl]
  simp

namespace Instant

/-- A number with zeros in front has the width that was asked for. -/
theorem areDigits_padded {width n : Nat} (h0 : 0 < width) (h : n < 10 ^ width) :
    AreDigits width (padded width n) :=
  ⟨length_padded h0 h, fun _ hc => isDigit_of_mem_padded hc⟩

/-- No blank stands before digits. -/
theorem trimStart_append {width : Nat} {digits : List Char} (h : AreDigits width digits)
    (pos : 0 < width) (rest : List Char) : trimStart (digits ++ rest) = digits ++ rest := by
  obtain ⟨c, more, rfl, digit⟩ := h.exists_cons pos
  rw [List.cons_append, trimStart_eq_self (isBlank_of_isDigit digit)]

/-- No more than `width` digits are read, whatever follows them. -/
theorem number?_append {width : Nat} {digits : List Char} (h : AreDigits width digits)
    (pos : 0 < width) (rest : List Char) :
    number? width (digits ++ rest) = some (readDigits digits, rest) := by
  have whole : (leadingDigits (digits ++ rest)).take width = digits := by
    rw [leadingDigits, List.takeWhile_append_of_pos h.isDigit]
    exact List.take_left' h.length
  obtain ⟨c, more, hd, -⟩ := h.exists_cons pos
  simp only [number?, trimStart_append h pos, whole]
  rw [hd]
  simp only
  rw [← hd, List.drop_left]

/-- A number is read as it was written. -/
theorem number?_padded {width n : Nat} (h0 : 0 < width) (h : n < 10 ^ width) (rest : List Char) :
    number? width (padded width n ++ rest) = some (n, rest) := by
  rw [number?_append (areDigits_padded h0 h) h0, readDigits_padded]

/-! ### The written form in parts -/

/-- The second that is written; that of a leap second is 60. -/
def shownSecond (i : Instant) : Nat :=
  if nanosPerSecond ≤ i.nanos then i.time.second + 1 else i.time.second

/-- The milliseconds that are written. -/
def shownMillis (i : Instant) : Nat := i.nanos % nanosPerSecond / 1000000

/-- The fraction of a second and what follows it. -/
def fractionText (i : Instant) (rest : List Char) : List Char :=
  '.' :: (padded 3 i.shownMillis ++ rest)

/-- The time of day and what follows it. -/
def clockText (i : Instant) (rest : List Char) : List Char :=
  padded 2 i.time.hour ++ ':' :: (padded 2 i.time.minute ++ ':' ::
    (padded 2 i.shownSecond ++ i.fractionText rest))

/-- The month, the day of the month and what follows them. -/
def monthText (i : Instant) (rest : List Char) : List Char :=
  '-' :: (padded 2 i.day.month ++ '-' :: (padded 2 i.day.day ++ rest))

/-- The written form: a year, a month and a day, a time and the letter of UTC. -/
theorem iso_eq (i : Instant) :
    i.iso = yearText i.day.year ++ i.monthText ('T' :: i.clockText ['Z']) := by
  simp [iso, monthText, clockText, fractionText, shownSecond, shownMillis]

theorem time_hour_lt (i : Instant) : i.time.hour < 24 := by
  simp only [time]
  omega

theorem time_minute_lt (i : Instant) : i.time.minute < 60 := by
  simp only [time]
  omega

theorem shownMillis_lt (i : Instant) : i.shownMillis < 1000 := by
  simp only [shownMillis, nanosPerSecond]
  omega

/-- The time that is written is the time of the instant. -/
theorem IsRegular.of?_shown {i : Instant} (h : i.IsRegular) :
    TimeOfDay.of? i.time.hour i.time.minute i.shownSecond (i.shownMillis * 1000000) =
      some i.time := by
  have second : nanosPerSecond = 1000000000 := rfl
  have hour := i.time_hour_lt
  have minute := i.time_minute_lt
  have millis : i.nanos % 1000000 = 0 := h.millis
  have nanos := h.nanos
  have whole : i.time = ⟨i.time.hour, i.time.minute, i.time.second, i.nanos⟩ := rfl
  -- a leap second is written as second 60, with what it has beyond a second as its fraction
  by_cases late : nanosPerSecond ≤ i.nanos
  · have last : i.time.second = 59 := by
      have := h.leap late
      simp only [time]
      omega
    have shown : i.shownSecond = 60 := by rw [shownSecond, if_pos late, last]
    have written : i.shownMillis * 1000000 + nanosPerSecond = i.nanos := by
      simp only [shownMillis, second] at *
      omega
    rw [TimeOfDay.of?, shown, if_neg (by omega), if_pos ⟨hour, minute, rfl⟩, written, whole, last]
  · have short : i.time.second < 60 := by
      simp only [time]
      omega
    have shown : i.shownSecond = i.time.second := by rw [shownSecond, if_neg late]
    have written : i.shownMillis * 1000000 = i.nanos := by
      simp only [shownMillis, second] at *
      omega
    rw [TimeOfDay.of?, shown, if_pos ⟨hour, minute, short⟩, written, whole]

/-- Seconds take two digits, those of a leap second too. -/
theorem shownSecond_lt (i : Instant) : i.shownSecond < 100 := by
  simp only [shownSecond, time]
  split <;> omega

/-- Months and days take two digits. -/
theorem IsRegular.day_lt {i : Instant} (h : i.IsRegular) : i.day.month < 100 ∧ i.day.day < 100 := by
  obtain ⟨-, month, day⟩ := h.day
  have : daysInMonth i.day.year i.day.month ≤ 31 := by
    unfold daysInMonth
    split
    · split <;> decide
    · split <;> decide
  omega

/-! ### RFC 3339 -/

/-- A time is written in front of any text alike. -/
theorem clockText_append (i : Instant) (rest : List Char) :
    i.clockText [] ++ rest = i.clockText rest := by
  simp [clockText, fractionText]

theorem monthText_append (i : Instant) (rest : List Char) :
    i.monthText [] ++ rest = i.monthText rest := by
  simp [monthText]

/-- The fraction that is written is the one of the milliseconds. -/
theorem isFractionText_fractionText (i : Instant) :
    IsFractionText (i.fractionText []) (i.shownMillis * 1000000) := by
  have three := @areDigits_padded 3 _ (by decide) i.shownMillis_lt
  have nanos : fractionNanos (padded 3 i.shownMillis) = i.shownMillis * 1000000 := by
    have short : (padded 3 i.shownMillis).length ≤ 9 := by rw [three.length]; decide
    rw [fractionNanos, List.take_of_length_le short, readDigits_padded, three.length]
  have ne : padded 3 i.shownMillis ≠ [] := by
    obtain ⟨c, more, hp, -⟩ := three.exists_cons (by decide)
    rw [hp]
    exact List.cons_ne_nil _ _
  rw [fractionText, List.append_nil, ← nanos]
  exact .some ne three.isDigit

/-- The time of day is written as one. -/
theorem IsRegular.isClockText {i : Instant} (h : i.IsRegular) :
    IsClockText (i.clockText []) i.time := by
  have hour := @areDigits_padded 2 i.time.hour (by decide) (by have := i.time_hour_lt; omega)
  have minute := @areDigits_padded 2 i.time.minute (by decide) (by have := i.time_minute_lt; omega)
  have second := @areDigits_padded 2 i.shownSecond (by decide) i.shownSecond_lt
  refine .intro hour minute second i.isFractionText_fractionText ?_
  rw [readDigits_padded, readDigits_padded, readDigits_padded]
  exact h.of?_shown

/-- In the years with four digits, the day is written as one. -/
theorem IsRegular.isDayText {i : Instant} (h : i.IsRegular)
    (year : 0 ≤ i.day.year ∧ i.day.year ≤ 9999) :
    IsDayText (yearText i.day.year ++ i.monthText []) i.day := by
  have four := @areDigits_padded 4 i.day.year.natAbs (by decide) (by omega)
  have month := @areDigits_padded 2 i.day.month (by decide) h.day_lt.1
  have day := @areDigits_padded 2 i.day.day (by decide) h.day_lt.2
  have written := IsDayText.intro four month day
  rw [readDigits_padded, readDigits_padded, readDigits_padded,
    show (i.day.year.natAbs : Int) = i.day.year by omega] at written
  rw [yearText, if_pos year, monthText, List.append_nil]
  exact written

/-- In the years with four digits, the ISO form is an RFC 3339 date. -/
theorem ofRfc3339?_iso {i : Instant} (h : i.IsRegular)
    (year : 0 ≤ i.day.year ∧ i.day.year ≤ 9999) : ofRfc3339? i.iso = .ok i := by
  have written : IsRfc3339 (yearText i.day.year ++ i.monthText [] ++ 'T' :: (i.clockText [] ++ ['Z']))
      ((atTime i.day i.time).addMinutes (-0)) :=
    .intro (h.isDayText year) h.day (by decide) h.isClockText .utc
  rw [clockText_append, List.append_assoc, monthText_append, ← iso_eq, Int.neg_zero, addMinutes_zero,
    atTime_day_time] at written
  exact ofRfc3339?_of_isRfc3339 written

/-- A year without four digits has a sign. -/
theorem yearText_of_not {year : Int} (h : ¬(0 ≤ year ∧ year ≤ 9999)) :
    yearText year = (if 0 ≤ year then '+' else '-') :: padded 4 year.natAbs := by
  rw [yearText, if_neg h]

/-- The written form is long enough to be looked at. -/
theorem byteLength_iso (i : Instant) : ¬byteLength i.iso < 19 := by
  have month := le_length_padded 2 i.day.month
  have day := le_length_padded 2 i.day.day
  have hour := le_length_padded 2 i.time.hour
  have minute := le_length_padded 2 i.time.minute
  have second := le_length_padded 2 i.shownSecond
  have millis := le_length_padded 3 i.shownMillis
  have whole : 19 ≤ i.iso.length := by
    simp only [iso_eq, monthText, clockText, fractionText, List.length_append, List.length_cons,
      List.length_nil]
    omega
  exact Nat.not_lt.2 (Nat.le_trans whole (length_le_byteLength i.iso))

/-- So its ISO form is no RFC 3339 date. -/
theorem ofRfc3339?_iso_eq_error {i : Instant} (year : ¬(0 ≤ i.day.year ∧ i.day.year ≤ 9999)) :
    ofRfc3339? i.iso = .error .malformed := by
  have long := byteLength_iso i
  have sign (rest : List Char) :
      fixedDigits 4 ((if 0 ≤ i.day.year then '+' else '-') :: rest) = .error .malformed := by
    -- a year has four digits at the place where the sign stands
    have noDigit : (if 0 ≤ i.day.year then '+' else '-').isDigit = false := by split <;> decide
    simp [fixedDigits, noDigit]
  rw [iso_eq, yearText_of_not year, List.cons_append] at long ⊢
  simp only [ofRfc3339?, if_neg long, rfc3339Day, sign, bind, Except.bind]

/-! ### Date literals -/

/-- An RFC 3339 date starts with a digit and ends with a digit or a `Z`. -/
theorem IsRfc3339.trim_eq {text : List Char} {i : Instant} (h : IsRfc3339 text i) :
    trim text = text := by
  cases h with
  | @intro _ clock zone separator _ _ _ hd _ _ ht hz =>
    cases hd with
    | @intro year month day hy _ _ =>
      -- the first character is a digit of the year and the last one ends the zone: neither is blank
      obtain ⟨first, digits, rfl, digit⟩ := hy.exists_cons (by decide)
      obtain ⟨before, last, rfl, ending⟩ := hz.exists_concat
      have visible : isBlank last = false := by
        simp only [List.mem_cons, List.not_mem_nil, or_false] at ending
        rcases ending with digit | rfl | rfl
        · exact isBlank_of_isDigit digit
        · decide
        · decide
      have whole : first :: digits ++ '-' :: (month ++ '-' :: day) ++
            separator :: (clock ++ (before ++ [last])) =
          first :: digits ++ '-' :: (month ++ '-' :: day) ++ separator :: (clock ++ before) ++
            [last] := by simp
      exact trim_eq_self (isBlank_of_isDigit digit) visible whole

/-- What RFC 3339 writes, a date literal writes as well. -/
theorem ofLiteral?_of_ofRfc3339? {text : List Char} {i : Instant} (h : ofRfc3339? text = .ok i) :
    ofLiteral? text = some i.truncated := by
  -- it is the first of the readings, and there is nothing to trim
  rw [ofLiteral?, (isRfc3339_of_ofRfc3339? h).trim_eq, readings, h]
  rfl

/-- A year with a sign is read as it was written. -/
theorem year?_yearText {year : Int} (h : ¬(0 ≤ year ∧ year ≤ 9999)) {rest : List Char}
    (hr : leadingDigits rest = []) : year? (yearText year ++ rest) = some (year, rest) := by
  have digits : ∀ c ∈ padded 4 year.natAbs, c.isDigit = true := fun c hc => isDigit_of_mem_padded hc
  obtain ⟨c, more, hp, -⟩ := exists_padded_eq_cons (show 0 < 4 by decide) year.natAbs
  have signed : signedYear? (padded 4 year.natAbs ++ rest) = some (year.natAbs, rest) := by
    simp only [signedYear?, leadingDigits_append digits hr, afterDigits_append digits hr]
    rw [hp]
    simp only
    rw [← hp, readDigits_padded]
  rw [yearText_of_not h, List.cons_append]
  -- such a year is written with its sign, so the signed reader takes all of its digits
  by_cases sign : 0 ≤ year
  · have blank : isBlank '+' = false := by decide
    simp only [if_pos sign, year?, trimStart_eq_self blank, signed, Option.map_some]
    rw [show (year.natAbs : Int) = year by omega]
  · have blank : isBlank '-' = false := by decide
    simp only [if_neg sign, year?, trimStart_eq_self blank, signed, Option.map_some]
    rw [show -(year.natAbs : Int) = year by omega]

/-- A time is read by its spelling as the time that it writes. -/
theorem readItems?_clockWithSeconds {clock : List Char} {t : TimeOfDay} (h : IsClockText clock t)
    (parts : Parts) :
    ∃ hour minute second nanos,
      readItems? clockWithSeconds parts clock = some { parts with hour, minute, second, nanos } ∧
        TimeOfDay.of? hour minute second nanos = some t := by
  cases h with
  | @intro _ _ _ fraction _ _ hour minute second written there =>
    have first := number?_append hour (by decide)
    have middle := number?_append minute (by decide)
    have last := number?_append second (by decide)
    have nanos := @fraction_append _ [] _ written rfl (by simp)
    rw [List.append_nil] at nanos
    refine ⟨_, _, _, _, ?_, there⟩
    simp only [clockWithSeconds, clock, List.cons_append, List.nil_append, readItems?, Item.read?,
      first, middle, last, nanos, Except.toOption, Option.map_some, bind, Option.bind, if_true]

/-- A day and a time of day are read by the spelling with both, if the day and what stands between
them are. -/
theorem ofForm?_of_read {text after clock : List Char} {d : Day} {t : TimeOfDay} {separator : Item}
    (there : d.Exists) (ht : IsClockText clock t)
    (day : ∀ items, readItems? (isoDay ++ items) .start text =
      readItems? items { Parts.start with year := d.year, month := d.month, day := d.day } after)
    (read : ∀ parts, separator.read? parts after = some (parts, clock)) :
    ofForm? (isoDay ++ [separator] ++ clockWithSeconds) text = some (atTime d t) := by
  let parts : Parts := { Parts.start with year := d.year, month := d.month, day := d.day }
  obtain ⟨hour, minute, second, nanos, clock', time⟩ := readItems?_clockWithSeconds ht parts
  -- the three pieces of the form in turn: the day, the separator and the clock
  have whole : readItems? (isoDay ++ [separator] ++ clockWithSeconds) .start text =
      some { parts with hour, minute, second, nanos } := by
    rw [List.append_assoc, day, List.singleton_append, readItems?, read]
    exact clock'
  rw [ofForm?, whole, Option.bind_some, Parts.instant?, time]
  exact if_pos there

/-- The ISO form without its `Z` has the first of the spellings with a day and a time. -/
theorem ofForm?_iso {i : Instant} (h : i.IsRegular)
    (year : ¬(0 ≤ i.day.year ∧ i.day.year ≤ 9999)) :
    ofForm? (isoDay ++ [.mark 'T'] ++ clockWithSeconds)
      (yearText i.day.year ++ i.monthText ('T' :: i.clockText [])) = some i := by
  have first (rest : List Char) := @year?_yearText i.day.year year ('-' :: rest) rfl
  have month := @number?_padded 2 i.day.month (by decide) h.day_lt.1
  have day := @number?_padded 2 i.day.day (by decide) h.day_lt.2
  have read (items : List Item) :
      readItems? (isoDay ++ items) .start
          (yearText i.day.year ++ i.monthText ('T' :: i.clockText [])) =
        readItems? items
          { Parts.start with year := i.day.year, month := i.day.month, day := i.day.day }
          ('T' :: i.clockText []) := by
    simp only [isoDay, List.cons_append, List.nil_append, monthText, readItems?, Item.read?, first,
      month, day, Option.map_some, bind, Option.bind, if_true]
  rw [ofForm?_of_read h.day h.isClockText read fun _ => rfl, atTime_day_time]

/-- The written form without its last letter. -/
theorem iso_eq_append (i : Instant) :
    i.iso = yearText i.day.year ++ i.monthText ('T' :: i.clockText []) ++ ['Z'] := by
  simp [iso_eq, monthText, clockText, fractionText]

/-- The letter of UTC is what is dropped from it. -/
theorem dropZone_iso (i : Instant) :
    dropZone i.iso = yearText i.day.year ++ i.monthText ('T' :: i.clockText []) := by
  rw [iso_eq_append, dropZone, List.getLast?_concat, if_pos rfl, List.dropLast_concat]

/-- The first character of a year is a digit or a sign. -/
theorem exists_yearText_eq_cons (year : Int) :
    ∃ c rest, yearText year = c :: rest ∧ (c.isDigit = true ∨ c = '+' ∨ c = '-') := by
  by_cases h : 0 ≤ year ∧ year ≤ 9999
  · obtain ⟨c, rest, hp, digit⟩ := exists_padded_eq_cons (show 0 < 4 by decide) year.natAbs
    exact ⟨c, rest, by rw [yearText, if_pos h, hp], .inl digit⟩
  · refine ⟨_, _, yearText_of_not h, .inr ?_⟩
    split
    · exact .inl rfl
    · exact .inr rfl

theorem trim_iso (i : Instant) : trim i.iso = i.iso := by
  obtain ⟨c, rest, hy, first⟩ := exists_yearText_eq_cons i.day.year
  have whole := iso_eq_append i
  have visible : isBlank c = false := by
    rcases first with digit | rfl | rfl
    · exact isBlank_of_isDigit digit
    · decide
    · decide
  rw [iso_eq, hy, List.cons_append] at whole ⊢
  exact trim_eq_self visible (by decide) whole

/-- As a date literal, the ISO form writes the same instant. -/
theorem ofLiteral?_iso {i : Instant} (h : i.IsRegular) : ofLiteral? i.iso = some i := by
  have same := truncated_eq_self h.millis
  by_cases year : 0 ≤ i.day.year ∧ i.day.year ≤ 9999
  · rw [ofLiteral?_of_ofRfc3339? (ofRfc3339?_iso h year), same]
  · -- RFC 3339 has no signs, so that the spelling with a signed year counts
    have form := ofForm?_iso h year
    rw [← dropZone_iso] at form
    rw [ofLiteral?, trim_iso, readings, ofRfc3339?_iso_eq_error year, dateTimeForms, List.map_cons,
      form]
    simp [Except.toOption, same]

/-- What stands in the ISO form: digits, and marks that no line break and no blank is one of. -/
theorem visible_of_mem_iso {i : Instant} {c : Char} (h : c ∈ i.iso) :
    c.isDigit = true ∨ c ∈ ['+', '-', 'T', ':', '.', 'Z'] := by
  have year : ∀ c ∈ yearText i.day.year, c.isDigit = true ∨ c ∈ ['+', '-'] := by
    intro c hc
    unfold yearText at hc
    split at hc
    · exact .inl (isDigit_of_mem_padded hc)
    · rcases List.mem_cons.1 hc with rfl | hc
      · right; split <;> decide
      · exact .inl (isDigit_of_mem_padded hc)
  have digits {width n : Nat} (hc : c ∈ padded width n) : c.isDigit = true :=
    isDigit_of_mem_padded hc
  simp only [iso_eq, monthText, clockText, fractionText, List.mem_append, List.mem_cons] at h year ⊢
  grind

end Instant

end FilterLang
