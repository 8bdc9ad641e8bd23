import FilterLang.Instant.Literal
import FilterLang.Proofs.Instant.Clock
import FilterLang.Proofs.Instant.Pieces

namespace FilterLang

/-!
# Instant — what the readers make of a text

* `Instant.isOnClock_of_ofRfc3339?` — an RFC 3339 date writes an instant on the calendar.
* `Instant.isOnClock_of_ofForm?` — so does a text in one of the other spellings.
* `Instant.isRegular_of_ofLiteral?` — a date literal writes a regular instant.
-/

namespace Instant

/-! ### RFC 3339 -/

/-- Digits of a fraction are less than a second. -/
theorem fractionNanos_lt {digits : List Char} (h : ∀ c ∈ digits, c.isDigit = true) :
    fractionNanos digits < nanosPerSecond := by
  have read := @readDigits_lt (digits.take 9) fun c hc => h c (List.mem_of_mem_take hc)
  -- digits after the ninth do not count
  have short : (digits.take 9).length ≤ 9 := List.length_take_le 9 digits
  simp only [fractionNanos]
  generalize readDigits (digits.take 9) = n at *
  generalize (digits.take 9).length = k at *
  calc n * Nat.pow 10 (9 - k)
      < 10 ^ k * 10 ^ (9 - k) := Nat.mul_lt_mul_of_pos_right read (Nat.pow_pos (by decide))
    _ = nanosPerSecond := by rw [← Nat.pow_add, Nat.add_sub_cancel' short]; rfl

theorem IsFractionText.lt {text : List Char} {n : Nat} (h : IsFractionText text n) :
    n < nanosPerSecond := by
  cases h with
  | none => decide
  | some _ digits => exact fractionNanos_lt digits

/-- A year of four digits has no sign. -/
theorem IsDayText.year_le {text : List Char} {d : Day} (h : IsDayText text d) :
    0 ≤ d.year ∧ d.year ≤ 9999 := by
  cases h with
  | intro year _ _ =>
    have := year.readDigits_lt
    simp only
    omega

/-- What is written as a time is a time on the clock. -/
theorem IsClockText.isOnClock {text : List Char} {t : TimeOfDay} (h : IsClockText text t) :
    t.IsOnClock := by
  cases h with
  | intro _ _ _ fraction there => exact TimeOfDay.isOnClock_of_of? there fraction.lt

/-- A zone is less than a day away from UTC. -/
theorem IsZoneText.lt {text : List Char} {m : Int} (h : IsZoneText text m) :
    -1440 < m ∧ m < 1440 := by
  cases h with
  | utc | lower => decide
  | offset _ _ _ day hour => split <;> omega

/-- A date of RFC 3339 is on the clock, also after its zone has moved it. -/
theorem isOnClock_of_ofRfc3339? {text : List Char} {i : Instant} (h : ofRfc3339? text = .ok i) :
    i.IsOnClock := by
  cases isRfc3339_of_ofRfc3339? h with
  | intro day there _ clock zone =>
    have near := zone.lt
    exact isOnClock_addMinutes there clock.isOnClock day.year_le (by omega)

/-! ### Other spellings -/

/-- No part of a spelling writes a whole second as a fraction of one. -/
theorem nanos_lt_of_read? {item : Item} {parts parts' : Parts} {text rest : List Char}
    (h : item.read? parts text = some (parts', rest)) (hp : parts.nanos < nanosPerSecond) :
    parts'.nanos < nanosPerSecond := by
  cases item with
  -- the only part that sets the nanoseconds
  | fraction =>
    simp only [Item.read?, Option.map_eq_some_iff] at h
    obtain ⟨⟨n, after⟩, hn, h⟩ := h
    cases h
    obtain ⟨_, -, written⟩ := of_fraction (toOption_eq_some_iff.1 hn)
    exact written.lt
  | mark c =>
    simp only [Item.read?] at h
    split at h
    · split at h
      · cases h; exact hp
      · cases h
    · cases h
  | gap => cases h; exact hp
  | _ =>
    simp only [Item.read?, Option.map_eq_some_iff] at h
    obtain ⟨_, -, h⟩ := h
    cases h
    exact hp

/-- Whatever pieces are read, the fraction stays below a second. -/
theorem nanos_lt_of_readItems? {items : List Item} {parts parts' : Parts} {text : List Char}
    (h : readItems? items parts text = some parts') (hp : parts.nanos < nanosPerSecond) :
    parts'.nanos < nanosPerSecond := by
  induction items generalizing parts text with
  | nil =>
    simp only [readItems?] at h
    split at h
    · cases h; exact hp
    · cases h
  | cons item items ih =>
    obtain ⟨⟨next, rest⟩, read, h⟩ := Option.bind_eq_some_iff.1 h
    exact ih h (nanos_lt_of_read? read hp)

/-- Parts that make an instant make one on the clock. -/
theorem isOnClock_of_instant? {parts : Parts} {i : Instant} (h : parts.instant? = some i)
    (hp : parts.nanos < nanosPerSecond) : i.IsOnClock := by
  obtain ⟨time, ht, h⟩ := Option.bind_eq_some_iff.1 h
  split at h
  · next there =>
    cases h
    exact isOnClock_atTime there (TimeOfDay.isOnClock_of_of? ht hp)
  · cases h

/-- So do all spellings of the tables. -/
theorem isOnClock_of_ofForm? {form : List Item} {text : List Char} {i : Instant}
    (h : ofForm? form text = some i) : i.IsOnClock := by
  obtain ⟨parts, read, h⟩ := Option.bind_eq_some_iff.1 h
  exact isOnClock_of_instant? h (nanos_lt_of_readItems? read (by decide))

/-! ### Date literals -/

/-- So each reading of a literal is on the clock. -/
theorem isOnClock_of_mem_readings {text : List Char} {i : Instant} (h : some i ∈ readings text) :
    i.IsOnClock := by
  simp only [readings, List.cons_append, List.mem_cons, List.mem_append, List.mem_map] at h
  rcases h with h | ⟨form, -, h⟩ | ⟨form, -, h⟩
  · exact isOnClock_of_ofRfc3339? (toOption_eq_some_iff.1 h.symm)
  · exact isOnClock_of_ofForm? h
  · exact isOnClock_of_ofForm? h

/-- A date literal writes an instant on the calendar, to the millisecond. -/
theorem isRegular_of_ofLiteral? {literal : List Char} {i : Instant}
    (h : ofLiteral? literal = some i) : i.IsRegular := by
  obtain ⟨j, found, rfl⟩ := Option.map_eq_some_iff.1 h
  obtain ⟨reading, hmem, hj⟩ := List.exists_of_findSome?_eq_some found
  rw [id] at hj
  exact (isOnClock_of_mem_readings (hj ▸ hmem)).isRegular_truncated

end Instant

end FilterLang
