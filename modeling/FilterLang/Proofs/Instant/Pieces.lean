import FilterLang.Instant.Rfc3339
import FilterLang.Proofs.Outcome
import FilterLang.Proofs.Text.Digits

namespace FilterLang

/-!
# Instant — the pieces of an RFC 3339 date

The reader goes through a text from left to right. Here the text is described as a whole, as the
pieces that stand one after the other.

* `Instant.IsDayText`, `Instant.IsClockText`, `Instant.IsZoneText` — how a day, a time of day and an
  offset in minutes are written.
* `Instant.IsRfc3339` — a day, a separator, a time of day and an offset, and the instant of these.
* `Instant.ofRfc3339?_eq_ok_iff` — the reader accepts whatever consists of these pieces, and nothing
  else.
-/

/-- Digits and nothing else, `width` of them. -/
structure AreDigits (width : Nat) (digits : List Char) : Prop where
  length : digits.length = width
  isDigit : ∀ c ∈ digits, c.isDigit = true

/-- A number of some width starts with a digit. -/
theorem AreDigits.exists_cons {width : Nat} {digits : List Char} (h : AreDigits width digits)
    (pos : 0 < width) : ∃ c more, digits = c :: more ∧ c.isDigit = true := by
  obtain ⟨c, more, rfl⟩ := List.exists_cons_of_length_pos (h.length.symm ▸ pos)
  exact ⟨c, more, rfl, h.isDigit c List.mem_cons_self⟩

theorem AreDigits.exists_concat {width : Nat} {digits : List Char} (h : AreDigits width digits)
    (pos : 0 < width) : ∃ before c, digits = before ++ [c] ∧ c.isDigit = true := by
  rcases List.eq_nil_or_concat' digits with rfl | ⟨before, c, rfl⟩
  · exact absurd h.length (Nat.ne_of_lt pos)
  · exact ⟨before, c, rfl, h.isDigit c (List.mem_append_right _ List.mem_cons_self)⟩

/-- The width bounds the number. -/
theorem AreDigits.readDigits_lt {width : Nat} {digits : List Char} (h : AreDigits width digits) :
    readDigits digits < 10 ^ width :=
  h.length ▸ FilterLang.readDigits_lt h.isDigit

namespace Instant

/-! ### How the pieces are written -/

/-- A day, as in `2024-01-05`. -/
inductive IsDayText : List Char → Day → Prop
  | intro {year month day : List Char} (hy : AreDigits 4 year) (hm : AreDigits 2 month)
      (hd : AreDigits 2 day) :
      IsDayText (year ++ '-' :: (month ++ '-' :: day))
        ⟨readDigits year, readDigits month, readDigits day⟩

/-- The nanoseconds after a point, or nothing. -/
inductive IsFractionText : List Char → Nat → Prop
  | none : IsFractionText [] 0
  | some {digits : List Char} (ne : digits ≠ []) (h : ∀ c ∈ digits, c.isDigit = true) :
      IsFractionText ('.' :: digits) (fractionNanos digits)

/-- A time of day, as in `12:30:00.5`. -/
inductive IsClockText : List Char → TimeOfDay → Prop
  | intro {hour minute second fraction : List Char} {nanos : Nat} {t : TimeOfDay}
      (hh : AreDigits 2 hour) (hm : AreDigits 2 minute) (hs : AreDigits 2 second)
      (hf : IsFractionText fraction nanos)
      (there : TimeOfDay.of? (readDigits hour) (readDigits minute) (readDigits second) nanos =
        some t) :
      IsClockText (hour ++ ':' :: (minute ++ ':' :: (second ++ fraction))) t

/-- An offset from UTC in minutes, as in `+02:00`. -/
inductive IsZoneText : List Char → Int → Prop
  | utc : IsZoneText ['Z'] 0
  | lower : IsZoneText ['z'] 0
  | offset {sign : Char} {hours minutes : List Char} (mark : sign ∈ ['+', '-', '\u2212'])
      (hh : AreDigits 2 hours) (hm : AreDigits 2 minutes) (day : readDigits hours < 24)
      (hour : readDigits minutes < 60) :
      IsZoneText (sign :: (hours ++ ':' :: minutes))
        (if sign = '+' then (readDigits hours * 60 + readDigits minutes : Int)
          else -(readDigits hours * 60 + readDigits minutes))

/-- An RFC 3339 date and the instant that it writes. -/
inductive IsRfc3339 : List Char → Instant → Prop
  | intro {day clock zone : List Char} {separator : Char} {d : Day} {t : TimeOfDay} {minutes : Int}
      (hd : IsDayText day d) (there : d.Exists) (hs : separator ∈ ['T', 't', ' '])
      (ht : IsClockText clock t) (hz : IsZoneText zone minutes) :
      IsRfc3339 (day ++ separator :: (clock ++ zone)) ((atTime d t).addMinutes (-minutes))

/-! ### What stands in the pieces -/

/-- A day is written with digits and hyphens. -/
theorem IsDayText.mem {day : List Char} {d : Day} {c : Char} (h : IsDayText day d) (hc : c ∈ day) :
    c.isDigit = true ∨ c = '-' := by
  cases h with
  | intro hy hm hd =>
    simp only [List.mem_append, List.mem_cons] at hc
    rcases hc with hc | rfl | hc | rfl | hc
    · exact .inl (hy.isDigit c hc)
    · exact .inr rfl
    · exact .inl (hm.isDigit c hc)
    · exact .inr rfl
    · exact .inl (hd.isDigit c hc)

/-- A time is written with digits, colons and a point. -/
theorem IsClockText.mem {clock : List Char} {t : TimeOfDay} {c : Char} (h : IsClockText clock t)
    (hc : c ∈ clock) : c.isDigit = true ∨ c ∈ [':', '.'] := by
  cases h with
  | intro hh hm hs hf _ =>
    simp only [List.mem_append, List.mem_cons] at hc
    rcases hc with hc | rfl | hc | rfl | hc | hc
    · exact .inl (hh.isDigit c hc)
    · exact .inr (by decide)
    · exact .inl (hm.isDigit c hc)
    · exact .inr (by decide)
    · exact .inl (hs.isDigit c hc)
    · cases hf with
      | none => cases hc
      | some _ digits =>
        rcases List.mem_cons.1 hc with rfl | hc
        · exact .inr (by decide)
        · exact .inl (digits c hc)

/-- A zone is a letter, or it is written with a sign, digits and a colon. The sign may be the minus
of mathematics. -/
theorem IsZoneText.mem {zone : List Char} {m : Int} {c : Char} (h : IsZoneText zone m)
    (hc : c ∈ zone) : c.isDigit = true ∨ c ∈ ['-', ':', 'Z', 'z', '+', '\u2212'] := by
  cases h with
  | utc | lower => rw [List.mem_singleton.1 hc]; exact .inr (by decide)
  | offset mark hh hm _ _ =>
    simp only [List.mem_append, List.mem_cons] at hc
    rcases hc with rfl | hc | rfl | hc
    · right
      revert mark
      simp only [List.mem_cons, List.not_mem_nil, or_false]
      rintro (rfl | rfl | rfl) <;> decide
    · exact .inl (hh.isDigit c hc)
    · exact .inr (by decide)
    · exact .inl (hm.isDigit c hc)

/-- An offset starts with no digit and no point, so that the time of day is read up to it. -/
theorem IsZoneText.start {zone : List Char} {m : Int} (h : IsZoneText zone m) :
    leadingDigits zone = [] ∧ zone.head? ≠ some '.' := by
  cases h with
  | utc | lower => decide
  | offset mark _ _ _ _ =>
    simp only [List.mem_cons, List.not_mem_nil, or_false] at mark
    rcases mark with rfl | rfl | rfl <;> exact ⟨rfl, by simp⟩

/-- A zone ends with a digit or a letter, so that no blank is trimmed from it. -/
theorem IsZoneText.exists_concat {zone : List Char} {m : Int} (h : IsZoneText zone m) :
    ∃ before last, zone = before ++ [last] ∧ (last.isDigit = true ∨ last ∈ ['Z', 'z']) := by
  cases h with
  | utc | lower => exact ⟨[], _, rfl, .inr (by decide)⟩
  | @offset sign hours _ _ _ hm _ _ =>
    obtain ⟨tens, ones, rfl, digit⟩ := hm.exists_concat (by decide)
    exact ⟨sign :: (hours ++ ':' :: tens), ones, by simp, .inl digit⟩

/-- Nothing else stands in a date of RFC 3339. -/
theorem IsRfc3339.mem {text : List Char} {i : Instant} {c : Char} (h : IsRfc3339 text i)
    (hc : c ∈ text) :
    c.isDigit = true ∨ c ∈ ['-', 'T', 't', ' ', ':', '.', 'Z', 'z', '+', '\u2212'] := by
  cases h with
  | intro hd _ hs ht hz =>
    simp only [List.mem_append, List.mem_cons] at hc
    rcases hc with hc | rfl | hc | hc
    · exact (hd.mem hc).imp_right fun dash => List.mem_cons.2 (.inl dash)
    · exact .inr (List.mem_cons_of_mem _ (List.mem_append_left _ hs))
    · exact (ht.mem hc).imp_right fun mark => List.Sublist.mem mark (by decide)
    · exact (hz.mem hc).imp_right fun mark => List.Sublist.mem mark (by decide)

/-! ### What the readers have read -/

/-- Digits that have been counted are those at the start of the text. -/
theorem of_fixedDigits {count n : Nat} {text rest : List Char}
    (h : fixedDigits count text = .ok (n, rest)) :
    ∃ digits, text = digits ++ rest ∧ AreDigits count digits ∧ n = readDigits digits := by
  simp only [fixedDigits] at h
  split at h
  · next digits =>
    simp only [Except.ok.injEq, Prod.mk.injEq] at h
    obtain ⟨rfl, rfl⟩ := h
    exact ⟨_, (List.take_append_drop count text).symm, ⟨digits.1, List.all_eq_true.1 digits.2⟩, rfl⟩
  · cases h

/-- A character that has been read is one of those allowed. -/
theorem of_oneOf {allowed text rest : List Char} (h : oneOf allowed text = .ok rest) :
    ∃ c ∈ allowed, text = c :: rest := by
  cases text with
  | nil => cases h
  | cons c more =>
    simp only [oneOf] at h
    split at h
    · next mem => cases h; exact ⟨c, mem, rfl⟩
    · cases h

/-- A fraction that has been read is written at the start of the text, if there is one. -/
theorem of_fraction {text rest : List Char} {n : Nat} (h : fraction text = .ok (n, rest)) :
    ∃ read, text = read ++ rest ∧ IsFractionText read n := by
  unfold fraction at h
  split at h
  · split at h
    · cases h
    · cases h
    · next after _ _ ne _ =>
      simp only [Except.ok.injEq, Prod.mk.injEq] at h
      obtain ⟨rfl, rfl⟩ := h
      refine ⟨'.' :: leadingDigits after, ?_, .some ne fun c hc => isDigit_of_mem_leadingDigits hc⟩
      rw [List.cons_append, leadingDigits_append_afterDigits]
  · simp only [Except.ok.injEq, Prod.mk.injEq] at h
    obtain ⟨rfl, rfl⟩ := h
    -- no point: nothing is read and the fraction is zero
    exact ⟨[], rfl, .none⟩

/-- A day that has been read is written at the start of the text, and it exists. -/
theorem of_rfc3339Day {text rest : List Char} {d : Day} (h : rfc3339Day text = .ok (d, rest)) :
    ∃ day, text = day ++ rest ∧ IsDayText day d ∧ d.Exists := by
  simp only [rfc3339Day, bind_eq_ok] at h
  obtain ⟨⟨_, _⟩, hy, _, first, ⟨_, _⟩, hm, _, second, ⟨_, _⟩, hd, h⟩ := h
  obtain ⟨year, rfl, year', rfl⟩ := of_fixedDigits hy
  obtain ⟨_, hc, rfl⟩ := of_oneOf first
  obtain rfl := List.mem_singleton.1 hc
  obtain ⟨month, rfl, month', rfl⟩ := of_fixedDigits hm
  obtain ⟨_, hc, rfl⟩ := of_oneOf second
  obtain rfl := List.mem_singleton.1 hc
  obtain ⟨day, rfl, day', rfl⟩ := of_fixedDigits hd
  split at h
  · next there =>
    cases h
    exact ⟨_, by simp, .intro year' month' day', there⟩
  · cases h

/-- A time that has been read is written at the start of the text. -/
theorem of_rfc3339Time {text rest : List Char} {t : TimeOfDay}
    (h : rfc3339Time text = .ok (t, rest)) : ∃ clock, text = clock ++ rest ∧ IsClockText clock t := by
  simp only [rfc3339Time, bind_eq_ok] at h
  obtain ⟨⟨_, _⟩, hh, _, first, ⟨_, _⟩, hm, _, second, ⟨_, _⟩, hs, ⟨_, _⟩, hn, h⟩ := h
  obtain ⟨hour, rfl, hour', rfl⟩ := of_fixedDigits hh
  obtain ⟨_, hc, rfl⟩ := of_oneOf first
  obtain rfl := List.mem_singleton.1 hc
  obtain ⟨minute, rfl, minute', rfl⟩ := of_fixedDigits hm
  obtain ⟨_, hc, rfl⟩ := of_oneOf second
  obtain rfl := List.mem_singleton.1 hc
  obtain ⟨second, rfl, second', rfl⟩ := of_fixedDigits hs
  obtain ⟨fraction, rfl, fraction'⟩ := of_fraction hn
  split at h
  · next there =>
    cases h
    exact ⟨_, by simp, .intro hour' minute' second' fraction' there⟩
  · cases h

theorem areDigits_pair {a b : Char} (ha : a.isDigit = true) (hb : b.isDigit = true) :
    AreDigits 2 [a, b] :=
  ⟨rfl, by simp [ha, hb]⟩

/-- Only the tens of minutes are compared with those of an hour. -/
theorem readDigits_pair_lt_iff {a b : Char} (ha : a.isDigit = true) (hb : b.isDigit = true) :
    readDigits [a, b] < 60 ↔ a.toNat < '6'.toNat := by
  have ones : readDigits [b] < 10 := FilterLang.readDigits_lt (by simpa using hb)
  have both := readDigits_append [a] [b]
  rw [readDigits_singleton a] at both
  simp only [List.singleton_append, List.length_singleton] at both
  have low := (Char.isDigit_iff_toNat.1 ha).1
  have : '0'.toNat = 48 ∧ '6'.toNat = 54 := by decide
  omega

/-- The hours of an offset are the next two characters; whether they are digits is checked later. -/
theorem of_offsetPair {text rest : List Char} {a b : Char} (h : offsetPair text = .ok (a, b, rest)) :
    text = a :: b :: rest := by
  unfold offsetPair at h
  split at h <;> cases h
  rfl

/-- The minutes of an offset are two digits for a number below 60. -/
theorem of_offsetMinutes {text rest : List Char} {n : Nat}
    (h : offsetMinutes text = .ok (n, rest)) :
    ∃ minutes, text = minutes ++ rest ∧ AreDigits 2 minutes ∧ n = readDigits minutes ∧ n < 60 := by
  simp only [offsetMinutes, bind_eq_ok] at h
  obtain ⟨⟨a, b, _⟩, pair, h⟩ := h
  obtain rfl := of_offsetPair pair
  simp only at h
  split at h
  · next digits =>
    split at h
    · next early =>
      cases h
      exact ⟨[a, b], rfl, areDigits_pair digits.1 digits.2, rfl,
        (readDigits_pair_lt_iff digits.1 digits.2).2 early⟩
    · cases h
  · cases h

/-- An offset that has been read is all of a zone. -/
theorem of_offset {text : List Char} {m : Int} (h : offset text = .ok m) : IsZoneText text m := by
  unfold offset at h
  split at h
  · cases h
  split at h
  · next zone =>
    split at h
    · next empty =>
      cases h
      subst empty
      rcases zone with rfl | rfl
      · exact .utc
      · exact .lower
    · cases h
  split at h
  · next mark =>
    simp only [bind_eq_ok] at h
    obtain ⟨⟨a, b, rest⟩, pair, h⟩ := h
    obtain rfl := of_offsetPair pair
    simp only at h
    split at h
    · cases h
    next digits =>
    obtain ⟨ha, hb⟩ := not_not.1 digits
    split at h
    · cases h
    · -- a sign, hours and minutes
      rw [bind_eq_ok] at h
      obtain ⟨_, colon, h⟩ := h
      cases colon
      rw [bind_eq_ok] at h
      obtain ⟨⟨_, _⟩, hm, h⟩ := h
      obtain ⟨minutes, rfl, minutes', rfl, hour⟩ := of_offsetMinutes hm
      simp only at h
      split at h
      · cases h
      next all =>
      obtain rfl := not_not.1 all
      split at h
      · cases h
      next day =>
      cases h
      rw [List.append_nil]
      exact .offset (by simpa using mark) (areDigits_pair ha hb) minutes' (by omega) hour
    · cases h
  · cases h

/-- Whatever the reader accepts is an RFC 3339 date and writes the instant that is read. -/
theorem isRfc3339_of_ofRfc3339? {text : List Char} {i : Instant} (h : ofRfc3339? text = .ok i) :
    IsRfc3339 text i := by
  unfold ofRfc3339? at h
  split at h
  · cases h
  · simp only [bind_eq_ok] at h
    obtain ⟨⟨d, _⟩, hd, _, separator, ⟨t, _⟩, ht, minutes, hz, h⟩ := h
    cases h
    obtain ⟨day, rfl, day', there⟩ := of_rfc3339Day hd
    obtain ⟨separator, separator', rfl⟩ := of_oneOf separator
    obtain ⟨clock, rfl, clock'⟩ := of_rfc3339Time ht
    exact .intro day' there separator' clock' (of_offset hz)

/-! ### Reading the pieces -/

/-- Digits of the width that is asked for are read. -/
theorem fixedDigits_append {width : Nat} {digits : List Char} (h : AreDigits width digits)
    (rest : List Char) : fixedDigits width (digits ++ rest) = .ok (readDigits digits, rest) := by
  have first : (digits ++ rest).take width = digits := List.take_left' h.length
  have second : (digits ++ rest).drop width = rest := List.drop_left' h.length
  have all : digits.all Char.isDigit = true := List.all_eq_true.2 h.isDigit
  simp only [fixedDigits, first, second, h.length, all, and_self, if_true]

/-- All digits after a point are read, whatever follows them. -/
theorem fraction_digits_append {digits rest : List Char} (ne : digits ≠ [])
    (all : ∀ c ∈ digits, c.isDigit = true) (stop : leadingDigits rest = []) :
    fraction ('.' :: (digits ++ rest)) = .ok (fractionNanos digits, rest) := by
  have leading := leadingDigits_append all stop
  have after := afterDigits_append all stop
  obtain ⟨c, more, rfl⟩ := List.exists_cons_of_ne_nil ne
  simp only [List.cons_append] at leading after ⊢
  simp only [fraction, leading, after]

/-- A fraction is read up to the first character that cannot be a part of it. -/
theorem fraction_append {text rest : List Char} {n : Nat} (h : IsFractionText text n)
    (digits : leadingDigits rest = []) (point : rest.head? ≠ some '.') :
    fraction (text ++ rest) = .ok (n, rest) := by
  cases h with
  | none =>
    rw [List.nil_append]
    unfold fraction
    split
    · exact absurd rfl point
    · rfl
  | some ne all => exact fraction_digits_append ne all digits

/-- A day that exists is read, whatever follows it. -/
theorem rfc3339Day_append {day : List Char} {d : Day} (h : IsDayText day d) (there : d.Exists)
    (rest : List Char) : rfc3339Day (day ++ rest) = .ok (d, rest) := by
  cases h with
  | intro hy hm hd =>
    simp only [List.append_assoc, List.cons_append, rfc3339Day, fixedDigits_append hy,
      fixedDigits_append hm, fixedDigits_append hd, oneOf, bind, Except.bind, List.mem_singleton,
      if_true, there]
    rfl

/-- A time is read if what follows it is not taken for a part of its fraction. -/
theorem rfc3339Time_append {clock rest : List Char} {t : TimeOfDay} (h : IsClockText clock t)
    (digits : leadingDigits rest = []) (point : rest.head? ≠ some '.') :
    rfc3339Time (clock ++ rest) = .ok (t, rest) := by
  cases h with
  | intro hh hm hs hf there =>
    simp only [List.append_assoc, List.cons_append, rfc3339Time, fixedDigits_append hh,
      fixedDigits_append hm, fixedDigits_append hs, fraction_append hf digits point, oneOf, bind,
      Except.bind, List.mem_singleton, if_true, there]
    rfl

/-- A zone is read as its offset. -/
theorem offset_of_isZoneText {zone : List Char} {m : Int} (h : IsZoneText zone m) :
    offset zone = .ok m := by
  cases h with
  | utc | lower => rfl
  | @offset sign hours minutes mark hh hm day hour =>
    obtain ⟨a, b, rfl⟩ := List.length_eq_two.1 hh.length
    obtain ⟨c, d, rfl⟩ := List.length_eq_two.1 hm.length
    have first : a.isDigit = true ∧ b.isDigit = true := by simpa using hh.isDigit
    have second : c.isDigit = true ∧ d.isDigit = true := by simpa using hm.isDigit
    have tens := (readDigits_pair_lt_iff second.1 second.2).1 hour
    -- minutes are below sixty exactly when their tens digit is below six, which the reader checks
    have minutes' : offsetMinutes [c, d] = .ok (readDigits [c, d], []) := by
      simp only [offsetMinutes, offsetPair, bind, Except.bind, second, and_self, if_true, tens]
    have noZone : ¬(sign = 'Z' ∨ sign = 'z') := by
      rintro (rfl | rfl) <;> exact absurd mark (by decide)
    have sign' : sign = '+' ∨ sign = '-' ∨ sign = '\u2212' := by simpa using mark
    simp only [List.cons_append, List.nil_append, Instant.offset, if_neg noZone, if_pos sign',
      offsetPair, bind, Except.bind, first, and_self, not_true_eq_false, if_false, minutes',
      ne_eq, Nat.not_le.2 day, pure, Except.pure]

/-- Every character takes a byte. -/
theorem length_le_byteLength (text : List Char) : text.length ≤ byteLength text := by
  unfold byteLength
  induction text with
  | nil => simp
  | cons c text ih =>
    have := c.utf8Size_pos
    rw [String.ofList_cons, String.utf8ByteSize_append, String.utf8ByteSize_singleton,
      List.length_cons]
    omega

/-- A date is long enough to be looked at. -/
theorem IsRfc3339.long {text : List Char} {i : Instant} (h : IsRfc3339 text i) :
    ¬byteLength text < 19 := by
  have bytes := length_le_byteLength text
  -- ten characters of the day, the separator and eight of the clock
  cases h with
  | intro hd _ _ ht _ =>
    cases hd with
    | intro hy hm hd =>
      cases ht with
      | intro hh hmin hs _ _ =>
        have := hy.length
        have := hm.length
        have := hd.length
        have := hh.length
        have := hmin.length
        have := hs.length
        simp only [List.length_append, List.length_cons] at bytes
        omega

/-- So a text that is written as a date is read as this date. -/
theorem ofRfc3339?_of_isRfc3339 {text : List Char} {i : Instant} (h : IsRfc3339 text i) :
    ofRfc3339? text = .ok i := by
  have long := h.long
  cases h with
  | intro hd there hs ht hz =>
    have time := rfc3339Time_append ht hz.start.1 hz.start.2
    simp only [ofRfc3339?, if_neg long, rfc3339Day_append hd there, oneOf, if_pos hs, time,
      offset_of_isZoneText hz, bind, Except.bind]
    rfl

/-- **RFC 3339.** The reader accepts a text if and only if it consists of a day, a separator, a time of
day and an offset, and it reads the instant of these. -/
theorem ofRfc3339?_eq_ok_iff {text : List Char} {i : Instant} :
    ofRfc3339? text = .ok i ↔ IsRfc3339 text i :=
  ⟨isRfc3339_of_ofRfc3339?, ofRfc3339?_of_isRfc3339⟩

end Instant

end FilterLang
