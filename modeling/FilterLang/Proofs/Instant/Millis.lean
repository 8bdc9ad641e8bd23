import Mathlib.Data.List.Basic
import FilterLang.Proofs.Instant.Readings

namespace FilterLang

/-!
# Instant — digits after the millisecond

A fraction of a second may have any number of digits. The readers take nine of them, and what is
smaller than a millisecond is cut off at the end. Cutting the fraction itself after the third digit
makes no difference: it is the only place where a point can stand, so that all that is read before a
point is read in the same way, whatever follows it.

* `Instant.AgreeToMillis` — digits that write the same milliseconds;
  `agreeToMillis_take` says that the first three digits are enough.
* `Instant.Parts.truncated`, `Instant.readItems?_congr` — truncating what has been read.
* `Instant.Item.read?_append_point` — no part of a spelling but a fraction reads beyond a point.
* `Instant.ofForm?_millis`, `Instant.ofRfc3339?_millis` — each reader with either fraction.
* `Instant.ofLiteral?_take_three` — so digits after the third do not count.
-/

/-! ### Text around a point -/

theorem isBlank_point : isBlank '.' = false := by decide

theorem isDigit_point : '.'.isDigit = false := by decide

/-- What stands behind a character that is no blank is not trimmed from the front. -/
theorem trimStart_append_cons {c : Char} (h : isBlank c = false) (before rest : List Char) :
    trimStart (before ++ c :: rest) = trimStart before ++ c :: rest := by
  induction before with
  | nil => exact trimStart_eq_self h
  | cons d before ih =>
    by_cases blank : isBlank d = true
    · simpa [trimStart, blank] using ih
    · simp [trimStart, blank]

/-- Leading digits end where a character is no digit. -/
theorem leadingDigits_append_cons {c : Char} (h : c.isDigit = false) (before rest : List Char) :
    leadingDigits (before ++ c :: rest) = leadingDigits before := by
  induction before with
  | nil => simp [leadingDigits, h]
  | cons d before ih =>
    by_cases digit : d.isDigit = true
    · simpa [leadingDigits, digit] using ih
    · simp [leadingDigits, digit]

/-- What follows the leading digits ends with what is put behind them. -/
theorem afterDigits_append_cons {c : Char} (h : c.isDigit = false) (before rest : List Char) :
    afterDigits (before ++ c :: rest) = afterDigits before ++ c :: rest := by
  have whole := leadingDigits_append_afterDigits (before ++ c :: rest)
  rw [leadingDigits_append_cons h] at whole
  refine List.append_cancel_left (whole.trans ?_)
  rw [← List.append_assoc, leadingDigits_append_afterDigits]

/-- A text starts with no digit if it is the start of one that does not. -/
theorem leadingDigits_of_prefix_eq_nil {text whole : List Char} (h : text <+: whole)
    (stop : leadingDigits whole = []) : leadingDigits text = [] := by
  obtain ⟨rest, rfl⟩ := h
  cases text with
  | nil => rfl
  | cons c text =>
    by_cases digit : c.isDigit = true
    · simp [leadingDigits, digit] at stop
    · simp [leadingDigits, digit]

namespace Instant

/-! ### Milliseconds of a fraction -/

/-- The first three digits of a fraction write its milliseconds. -/
theorem fractionNanos_div {digits : List Char} (h : ∀ c ∈ digits, c.isDigit = true)
    (three : 3 ≤ digits.length) : fractionNanos digits / 1000000 = readDigits (digits.take 3) := by
  obtain ⟨later, read⟩ : ∃ later, digits.take 9 = digits.take 3 ++ later :=
    ⟨(digits.take 9).drop 3, (List.take_append_drop 3 (digits.take 9)).symm.trans (by
      rw [List.take_take]; rfl)⟩
  have written : (digits.take 9).length = 3 + later.length := by
    rw [read, List.length_append, List.length_take, Nat.min_eq_left three]
  have nine : later.length ≤ 6 := by
    have := List.length_take_le 9 digits
    omega
  -- the later digits write less than a millisecond
  have small : readDigits later * 10 ^ (6 - later.length) < 1000000 := by
    have lt := @readDigits_lt later fun c hc =>
      h c (List.mem_of_mem_take (read ▸ List.mem_append_right _ hc))
    calc readDigits later * 10 ^ (6 - later.length)
        < 10 ^ later.length * 10 ^ (6 - later.length) :=
          Nat.mul_lt_mul_of_pos_right lt (Nat.pow_pos (by decide))
      _ = 1000000 := by rw [← Nat.pow_add, Nat.add_sub_cancel' nine]
  have nanos : fractionNanos digits =
      readDigits (digits.take 3) * 1000000 + readDigits later * 10 ^ (6 - later.length) := by
    calc fractionNanos digits
        = readDigits (digits.take 9) * 10 ^ (9 - (digits.take 9).length) := rfl
      _ = (readDigits (digits.take 3) * 10 ^ later.length + readDigits later) *
            10 ^ (6 - later.length) := by
          rw [written, read, readDigits_append]
          congr 2
          omega
      _ = readDigits (digits.take 3) * 1000000 + readDigits later * 10 ^ (6 - later.length) := by
          rw [Nat.add_mul, Nat.mul_assoc, ← Nat.pow_add, Nat.add_sub_cancel' nine]
  omega

/-- Two ways to write a fraction of a second that are the same to the millisecond. -/
structure AgreeToMillis (first second : List Char) : Prop where
  left : first ≠ [] ∧ ∀ c ∈ first, c.isDigit = true
  right : second ≠ [] ∧ ∀ c ∈ second, c.isDigit = true
  millis : fractionNanos first / 1000000 = fractionNanos second / 1000000

theorem AgreeToMillis.symm {first second : List Char} (h : AgreeToMillis first second) :
    AgreeToMillis second first :=
  ⟨h.right, h.left, h.millis.symm⟩

/-- Three digits are enough. -/
theorem agreeToMillis_take {digits : List Char} (h : ∀ c ∈ digits, c.isDigit = true)
    (three : 3 ≤ digits.length) : AgreeToMillis digits (digits.take 3) where
  left := ⟨List.ne_nil_of_length_pos (by omega), h⟩
  right := by
    refine ⟨List.ne_nil_of_length_pos ?_, fun c hc => h c (List.mem_of_mem_take hc)⟩
    rw [List.length_take]
    omega
  millis := by
    have length : (digits.take 3).length = 3 := by rw [List.length_take, Nat.min_eq_left three]
    rw [fractionNanos_div h three,
      fractionNanos_div (fun c hc => h c (List.mem_of_mem_take hc)) (Nat.le_of_eq length.symm),
      List.take_take, Nat.min_self]

/-! ### Truncating what has been read -/

end Instant

/-- A time of day without what is smaller than a millisecond. -/
def TimeOfDay.truncated (t : TimeOfDay) : TimeOfDay :=
  { t with nanos := t.nanos - t.nanos % 1000000 }

/-- A leap second is a whole number of milliseconds, so that truncating stays within it. -/
theorem TimeOfDay.map_truncated_of? (hour minute second nanos : Nat) :
    (of? hour minute second nanos).map truncated =
      of? hour minute second (nanos - nanos % 1000000) := by
  have second' : nanosPerSecond = 1000000000 := rfl
  unfold of?
  split
  · rfl
  · split
    · simp only [Option.map_some, truncated, Option.some.injEq, TimeOfDay.mk.injEq, true_and]
      omega
    · rfl

namespace Instant

/-- What has been read of a date, without what is smaller than a millisecond. -/
def Parts.truncated (p : Parts) : Parts := { p with nanos := p.nanos - p.nanos % 1000000 }

/-- It makes no difference whether an instant is cut to milliseconds or the parts that it is made
of. -/
theorem Parts.map_truncated_instant? (p : Parts) :
    p.instant?.map Instant.truncated = p.truncated.instant? := by
  have time := TimeOfDay.map_truncated_of? p.hour p.minute p.second p.nanos
  simp only [instant?, truncated, ← time]
  cases TimeOfDay.of? p.hour p.minute p.second p.nanos with
  | none => rfl
  | some t =>
    simp only [Option.map_some, bind, Option.bind_some]
    rw [apply_ite (Option.map Instant.truncated)]
    rfl

/-- Parts of a spelling are read in the same way, whatever has been read before them. -/
theorem Item.read?_congr (item : Item) {p q : Parts} (h : p.truncated = q.truncated)
    (text : List Char) :
    (item.read? p text).map (Prod.map Parts.truncated id) =
      (item.read? q text).map (Prod.map Parts.truncated id) := by
  obtain ⟨sameYear, sameMonth, sameDay, sameHour, sameMinute, sameSecond, sameMillis⟩ :=
    Parts.mk.inj h
  -- an item reads the same text whatever the parts are, and sets one of them or none
  cases item with
  | gap => simp [read?, h]
  | mark c =>
    simp only [read?]
    split
    · split
      · simp [h]
      · rfl
    · rfl
  | _ =>
    simp only [read?, Option.map_map]
    refine Option.map_congr fun read _ => ?_
    simp [Parts.truncated, *]

/-- Pieces are read alike after parts that agree to the millisecond. -/
theorem readItems?_congr {items : List Item} {p q : Parts} (h : p.truncated = q.truncated)
    (text : List Char) :
    (readItems? items p text).map Parts.truncated =
      (readItems? items q text).map Parts.truncated := by
  -- Induction on the items: each of them keeps the two sets of parts equal to the millisecond.
  induction items generalizing p q text with
  | nil =>
    simp only [readItems?]
    split
    · simp [h]
    · rfl
  | cons item items ih =>
    have read := item.read?_congr h text
    simp only [readItems?, bind]
    cases hp : item.read? p text with
    | none =>
      rw [hp, Option.map_none, eq_comm, Option.map_eq_none_iff] at read
      rw [read]
    | some first =>
      rw [hp, Option.map_some, eq_comm, Option.map_eq_some_iff] at read
      obtain ⟨second, hq, same⟩ := read
      obtain ⟨parts, rest⟩ := Prod.mk.inj same
      simp only [id] at rest
      rw [hq, Option.bind_some, Option.bind_some, rest]
      exact ih parts.symm _

/-! ### Reading up to a point -/

/-- A number is read as far as it goes without the point. -/
theorem number?_append_point (width : Nat) (before rest : List Char) :
    number? width (before ++ '.' :: rest) =
      (number? width before).map (Prod.map id (· ++ '.' :: rest)) := by
  simp only [number?, trimStart_append_cons isBlank_point,
    leadingDigits_append_cons isDigit_point]
  have short : ((leadingDigits (trimStart before)).take width).length ≤ (trimStart before).length :=
    ((List.take_prefix _ _).trans (List.takeWhile_prefix _)).length_le
  cases read : (leadingDigits (trimStart before)).take width with
  | nil => rfl
  | cons c digits =>
    rw [read] at short
    simp only [Option.map_some, Prod.map, id, List.drop_append_of_le_length short]

/-- So are the digits after the sign of a year. -/
theorem signedYear?_append_point (before rest : List Char) :
    signedYear? (before ++ '.' :: rest) =
      (signedYear? before).map (Prod.map id (· ++ '.' :: rest)) := by
  simp only [signedYear?, leadingDigits_append_cons isDigit_point,
    afterDigits_append_cons isDigit_point]
  cases leadingDigits before <;> rfl

/-- So is a year, with a sign or without. -/
theorem year?_append_point (before rest : List Char) :
    year? (before ++ '.' :: rest) = (year? before).map (Prod.map id (· ++ '.' :: rest)) := by
  unfold year?
  rw [trimStart_append_cons isBlank_point]
  cases trimStart before with
  | nil => rfl
  | cons c text =>
    rw [List.cons_append]
    -- a sign sends the reader to the signed year, any other character to the plain number
    split
    next minus =>
      cases minus
      simp only [signedYear?_append_point, Option.map_map]
      rfl
    next plus =>
      cases plus
      simp only [signedYear?_append_point, Option.map_map]
      rfl
    next noMinus noPlus =>
      split
      next minus => cases minus; exact absurd rfl (noMinus _)
      next plus => cases plus; exact absurd rfl (noPlus _)
      next =>
        rw [← List.cons_append, number?_append_point, Option.map_map, Option.map_map]
        rfl

/-- A word without a point does not reach beyond one. -/
theorem afterWord?_append_point {word : List Char} (h : '.' ∉ word) (before rest : List Char) :
    afterWord? word (before ++ '.' :: rest) = (afterWord? word before).map (· ++ '.' :: rest) := by
  unfold afterWord?
  by_cases long : word.length ≤ before.length
  · rw [List.take_append_of_le_length long, List.drop_append_of_le_length long]
    split <;> rfl
  · -- both texts are too short for the word
    rw [Nat.not_le] at long
    rw [if_neg, if_neg]
    · rfl
    · intro same
      have length := congrArg List.length same
      simp only [List.length_map, List.length_take] at length
      omega
    · intro same
      refine h (same ▸ List.mem_map.2 ⟨'.', ?_, by decide⟩)
      rw [List.take_append, List.mem_append]
      right
      obtain ⟨n, more⟩ := Nat.exists_eq_add_of_lt long
      rw [show word.length - before.length = n + 1 by omega]
      exact List.mem_cons_self

theorem point_not_mem_month :
    ∀ name ∈ monthNames, '.' ∉ name.1.toList ∧ '.' ∉ name.2.toList := by
  decide

/-- So is the name of a month, as none holds a point. -/
theorem monthName?_append_point (before rest : List Char) :
    monthName? (before ++ '.' :: rest) =
      (monthName? before).map (Prod.map id (Prod.map id (· ++ '.' :: rest))) := by
  unfold monthName?
  rw [List.map_findSome?, ← List.head?_filterMap, ← List.head?_filterMap]
  congr 1
  apply List.filterMap_congr
  rintro ⟨name, month⟩ hmem
  have letters := (point_not_mem_month name (List.fst_mem_of_mem_zipIdx hmem)).1
  simp only [Function.comp, afterWord?_append_point letters, Option.map_map]
  rfl

/-- A fraction that starts before a point ends before it. -/
theorem fraction_append_point {before : List Char} (ne : before ≠ []) (rest : List Char) :
    (fraction (before ++ '.' :: rest)).toOption =
      (fraction before).toOption.map (Prod.map id (· ++ '.' :: rest)) := by
  obtain ⟨c, more, rfl⟩ := List.exists_cons_of_ne_nil ne
  rw [List.cons_append]
  -- a fraction that has begun ends at the second point, and one that has not reads nothing
  by_cases point : c = '.'
  · subst point
    simp only [fraction, leadingDigits_append_cons isDigit_point,
      afterDigits_append_cons isDigit_point]
    cases leadingDigits more with
    | nil => cases more <;> rfl
    | cons d digits => rfl
  · have other (rest : List Char) : fraction (c :: rest) = .ok (0, c :: rest) := by
      unfold fraction
      split
      next same => cases same; exact absurd rfl point
      next => rfl
    rw [other, other]
    rfl

/-- No part of a spelling looks beyond a point, unless it is the fraction that starts there. -/
theorem Item.read?_append_point {item : Item} (plain : item ≠ .mark '.') {before : List Char}
    (inside : item = .fraction → before ≠ []) (parts : Parts) (rest : List Char) :
    item.read? parts (before ++ '.' :: rest) =
      (item.read? parts before).map (Prod.map id (· ++ '.' :: rest)) := by
  -- Every item stops before a point, but for the point itself and a fraction, which would start at
  -- it: the two the hypotheses exclude.
  cases item with
  | year =>
    simp only [read?, year?_append_point, Option.map_map]
    rfl
  | month | day | hour | minute | second =>
    simp only [read?, number?_append_point, Option.map_map]
    rfl
  | fraction =>
    simp only [read?, fraction_append_point (inside rfl), Option.map_map]
    rfl
  | shortMonth =>
    simp only [read?, monthName?_append_point, Option.map_map]
    rfl
  | longMonth =>
    simp only [read?, monthName?_append_point]
    cases found : monthName? before with
    | none => rfl
    | some month =>
      obtain ⟨name, hn, completion, -⟩ := of_monthName? found
      -- no month name has a point, so the completion of the name stops at it as well
      have letters := (point_not_mem_month name hn).2
      simp only [Option.map_some, Prod.map, id, completion, afterWord?_append_point letters]
      cases afterWord? name.2.toList month.2.2 <;> rfl
  | gap =>
    simp only [read?, trimStart_append_cons isBlank_point]
    rfl
  | mark c =>
    cases before with
    | nil =>
      have other : '.' ≠ c := fun same => plain (same ▸ rfl)
      simp only [read?, List.nil_append, if_neg other]
      rfl
    | cons d before =>
      simp only [read?, List.cons_append]
      split <;> rfl

/-! ### Either fraction -/

variable {first second after : List Char}

/-- Two texts that differ in such fractions are read part by part with the same milliseconds. -/
theorem readItems?_millis (agree : AgreeToMillis first second) (stop : leadingDigits after = [])
    {items : List Item} (plain : .mark '.' ∉ items) (parts : Parts) (before : List Char) :
    (readItems? items parts (before ++ '.' :: (first ++ after))).map Parts.truncated =
      (readItems? items parts (before ++ '.' :: (second ++ after))).map Parts.truncated := by
  induction items generalizing parts before with
  | nil => simp [readItems?]
  | cons item items ih =>
    obtain ⟨here, later⟩ := not_or.1 (mt List.mem_cons.2 plain)
    by_cases reached : item = .fraction ∧ before = []
    · -- the fractions themselves are read, and what follows them is the same
      obtain ⟨rfl, rfl⟩ := reached
      have left := fraction_digits_append agree.left.1 agree.left.2 stop
      have right := fraction_digits_append agree.right.1 agree.right.2 stop
      simp only [List.nil_append, readItems?, Item.read?, left, right, Except.toOption,
        Option.map_some, bind, Option.bind_some]
      refine readItems?_congr ?_ after
      have millis := agree.millis
      simp only [Parts.truncated, Parts.mk.injEq, true_and]
      omega
    · -- what is read lies before the point
      have inside : item = .fraction → before ≠ [] := fun same none => reached ⟨same, none⟩
      have read := item.read?_append_point (Ne.symm here) inside parts
      rw [readItems?, readItems?, read, read]
      cases item.read? parts before with
      | none => rfl
      | some more => exact ih later more.1 more.2

/-- So no spelling of the tables tells them apart. -/
theorem ofForm?_millis (agree : AgreeToMillis first second) (stop : leadingDigits after = [])
    {form : List Item} (hf : form ∈ forms) (before : List Char) :
    (ofForm? form (before ++ '.' :: (first ++ after))).map truncated =
      (ofForm? form (before ++ '.' :: (second ++ after))).map truncated := by
  have plain : ∀ form ∈ forms, Item.mark '.' ∉ form := by decide
  have read := readItems?_millis agree stop (plain form hf) .start before
  have bind (parts : Option Parts) :
      (parts.bind Parts.instant?).map truncated =
        (parts.map Parts.truncated).bind Parts.instant? := by
    cases parts with
    | none => rfl
    | some parts => exact parts.map_truncated_instant?
  rw [ofForm?, ofForm?, bind, bind, read]

theorem point_not_mem_digits {digits : List Char} (h : ∀ c ∈ digits, c.isDigit = true) :
    '.' ∉ digits :=
  fun point => Bool.false_ne_true (isDigit_point.symm.trans (h _ point))

/-- A time of day has a point only in front of the digits of its fraction, which can be exchanged. -/
theorem IsClockText.point {clock : List Char} {t : TimeOfDay} (h : IsClockText clock t) :
    '.' ∉ clock ∨
      ∃ front digits, clock = front ++ '.' :: digits ∧ '.' ∉ front ∧
        (∀ c ∈ digits, c.isDigit = true) ∧
        ∀ other, AgreeToMillis digits other →
          ∃ t', IsClockText (front ++ '.' :: other) t' ∧ t.truncated = t'.truncated := by
  cases h with
  | @intro hour minute second fraction nanos _ hh hm hs hf there =>
    have inHour := point_not_mem_digits hh.isDigit
    have inMinute := point_not_mem_digits hm.isDigit
    have inSecond := point_not_mem_digits hs.isDigit
    cases hf with
    | none => exact .inl (by simp [inHour, inMinute, inSecond])
    | @some digits ne all =>
      refine .inr ⟨hour ++ ':' :: (minute ++ ':' :: second), digits, by simp,
        by simp [inHour, inMinute, inSecond], all, ?_⟩
      intro other agree
      -- there is such a time with either fraction, and it is the same to the millisecond
      have same := TimeOfDay.map_truncated_of? (readDigits hour) (readDigits minute)
        (readDigits second)
      have whole : fractionNanos digits - fractionNanos digits % 1000000 =
          fractionNanos other - fractionNanos other % 1000000 := by
        have millis := agree.millis
        omega
      have exchanged := (same (fractionNanos digits)).trans
        ((congrArg _ whole).trans (same (fractionNanos other)).symm)
      rw [there, Option.map_some, eq_comm, Option.map_eq_some_iff] at exchanged
      obtain ⟨t', there', truncated⟩ := exchanged
      have written := IsClockText.intro hh hm hs (.some agree.right.1 agree.right.2) there'
      exact ⟨t', by simpa using written, truncated.symm⟩

/-- The point of an RFC 3339 date stands in front of its fraction, so that the fraction can be
exchanged. -/
theorem IsRfc3339.exists_of_agree (agree : AgreeToMillis first second)
    (stop : leadingDigits after = []) {before : List Char} {i : Instant}
    (h : IsRfc3339 (before ++ '.' :: (first ++ after)) i) :
    ∃ j, IsRfc3339 (before ++ '.' :: (second ++ after)) j ∧ i.truncated = j.truncated := by
  generalize whole : before ++ '.' :: (first ++ after) = text at h
  cases h with
  | @intro day clock zone separator d t minutes hd there hs ht hz =>
    have inDay : '.' ∉ day := fun point => absurd (hd.mem point) (by decide)
    have inZone : '.' ∉ zone := fun point => absurd (hz.mem point) (by decide)
    have inSeparator : '.' ≠ separator := by
      rintro rfl
      exact absurd hs (by decide)
    rcases ht.point with none | ⟨front, digits, rfl, inFront, all, exchange⟩
    · have point : '.' ∈ before ++ '.' :: (first ++ after) := by simp
      rw [whole] at point
      simp [inDay, inSeparator, none, inZone] at point
    · have inRest : '.' ∉ digits ++ zone := by simp [point_not_mem_digits all, inZone]
      have parts : day ++ separator :: front ++ '.' :: (digits ++ zone) =
          before ++ '.' :: (first ++ after) := by simp [whole]
      obtain ⟨rfl, -, same⟩ := (List.append_cons_inj_of_notMem
        (by simp [inDay, inSeparator, inFront]) inRest).1 parts
      -- both texts after the point consist of digits and of what follows them
      have read := leadingDigits_append all hz.start.1
      rw [same, leadingDigits_append agree.left.2 stop] at read
      subst read
      obtain rfl := List.append_cancel_left same
      obtain ⟨t', clock', truncated⟩ := exchange second agree
      refine ⟨(atTime d t').addMinutes (-minutes), ?_, ?_⟩
      · simpa using IsRfc3339.intro hd there hs clock' hz
      · exact congrArg (fun t => (atTime d t).addMinutes (-minutes)) truncated

/-- In RFC 3339, fractions that agree to the millisecond write the same milliseconds. -/
theorem ofRfc3339?_millis (agree : AgreeToMillis first second) (stop : leadingDigits after = [])
    (before : List Char) :
    (ofRfc3339? (before ++ '.' :: (first ++ after))).toOption.map truncated =
      (ofRfc3339? (before ++ '.' :: (second ++ after))).toOption.map truncated := by
  have one {first second : List Char} (agree : AgreeToMillis first second) (k : Instant)
      (h : (ofRfc3339? (before ++ '.' :: (first ++ after))).toOption.map truncated = some k) :
      (ofRfc3339? (before ++ '.' :: (second ++ after))).toOption.map truncated = some k := by
    obtain ⟨i, read, rfl⟩ := Option.map_eq_some_iff.1 h
    obtain ⟨j, other, same⟩ := IsRfc3339.exists_of_agree agree stop
      (ofRfc3339?_eq_ok_iff.1 (toOption_eq_some_iff.1 read))
    exact Option.map_eq_some_iff.2
      ⟨j, toOption_eq_some_iff.2 (ofRfc3339?_eq_ok_iff.2 other), same.symm⟩
  exact Option.ext fun k => ⟨one agree k, one agree.symm k⟩

/-! ### Date literals -/

/-- Blanks around a literal do not belong to its fraction. -/
theorem trim_append_point {digits : List Char} (ne : digits ≠ [])
    (all : ∀ c ∈ digits, c.isDigit = true) (before after : List Char) :
    trim (before ++ '.' :: (digits ++ after)) =
      trimStart before ++ '.' :: (digits ++ (trimStart after.reverse).reverse) := by
  obtain ⟨init, last, rfl⟩ := (List.eq_nil_or_concat' digits).resolve_left ne
  have visible : isBlank last = false := isBlank_of_isDigit (all last (by simp))
  have back : (trimStart before ++ '.' :: (init ++ [last] ++ after)).reverse =
      after.reverse ++ last :: (init.reverse ++ '.' :: (trimStart before).reverse) := by simp
  rw [trim, trimStart_append_cons isBlank_point, back, trimStart_append_cons visible]
  simp

/-- Nor does the `Z` at its end. -/
theorem dropZone_append_point {digits : List Char} (ne : digits ≠ [])
    (all : ∀ c ∈ digits, c.isDigit = true) (before after : List Char) :
    dropZone (before ++ '.' :: (digits ++ after)) = before ++ '.' :: (digits ++ dropZone after) := by
  -- only the last character can be dropped: a digit when nothing follows, else the last of `after`
  rcases List.eq_nil_or_concat' after with rfl | ⟨init, last, rfl⟩
  · obtain ⟨init, last, rfl⟩ := (List.eq_nil_or_concat' digits).resolve_left ne
    have digit := all last (by simp)
    have noZone : last ≠ 'Z' := by
      rintro rfl
      exact absurd digit (by decide)
    have whole : before ++ '.' :: (init ++ [last] ++ []) = before ++ '.' :: init ++ [last] := by simp
    rw [whole, dropZone_concat_of_ne _ noZone]
    simp [dropZone]
  · have whole : before ++ '.' :: (digits ++ (init ++ [last])) =
        before ++ '.' :: (digits ++ init) ++ [last] := by simp
    by_cases zone : last = 'Z'
    · subst zone
      rw [whole, dropZone_concat, dropZone_concat]
    · rw [dropZone_concat_of_ne _ zone, whole, dropZone_concat_of_ne _ zone]

/-- Truncating each reading and taking the first one is the same as the other way round. -/
theorem ofLiteral?_eq (literal : List Char) :
    ofLiteral? literal = ((readings (trim literal)).map (Option.map truncated)).findSome? id := by
  rw [ofLiteral?, List.map_findSome?, List.findSome?_map]
  rfl

/-- So they do in a date literal, whatever spelling reads it. -/
theorem ofLiteral?_millis (agree : AgreeToMillis first second) (stop : leadingDigits after = [])
    (before : List Char) :
    ofLiteral? (before ++ '.' :: (first ++ after)) =
      ofLiteral? (before ++ '.' :: (second ++ after)) := by
  -- What the readers see after the digits is a prefix of `after`, so it starts with no digit either.
  have trimmed : (trimStart after.reverse).reverse <+: after := by
    have := List.reverse_prefix.2 (List.dropWhile_suffix isBlank (l := after.reverse))
    rwa [List.reverse_reverse] at this
  have stop' := leadingDigits_of_prefix_eq_nil trimmed stop
  have zone : dropZone (trimStart after.reverse).reverse <+: (trimStart after.reverse).reverse := by
    unfold dropZone
    split
    · exact List.dropLast_prefix _
    · exact List.prefix_rfl
  -- then each of the eleven readings agrees by itself
  have rfc := ofRfc3339?_millis agree stop' (trimStart before)
  have dateTime (form) (hf : form ∈ dateTimeForms) := ofForm?_millis agree
    (leadingDigits_of_prefix_eq_nil zone stop') (List.mem_append_left dayForms hf) (trimStart before)
  have day (form) (hf : form ∈ dayForms) := ofForm?_millis agree stop'
    (List.mem_append_right dateTimeForms hf) (trimStart before)
  rw [ofLiteral?_eq, ofLiteral?_eq, trim_append_point agree.left.1 agree.left.2,
    trim_append_point agree.right.1 agree.right.2]
  congr 1
  simp only [readings, dropZone_append_point agree.left.1 agree.left.2,
    dropZone_append_point agree.right.1 agree.right.2, List.map_append, List.map_cons, List.map_map]
  rw [rfc]
  exact congrArg₂ (_ :: · ++ ·) (List.map_congr_left dateTime) (List.map_congr_left day)

/-- **To the millisecond.** Of the digits of a fraction, only the first three count: whatever stands
before the point and after the digits, a literal with further digits is a date if and only if it is
one without them, and it is the same date. Every date is a whole number of milliseconds. -/
theorem ofLiteral?_take_three :
    (∀ before digits after : List Char, (∀ c ∈ digits, c.isDigit = true) → 3 ≤ digits.length →
      (∀ c ∈ after.head?, c.isDigit = false) →
        ofLiteral? (before ++ '.' :: (digits ++ after)) =
          ofLiteral? (before ++ '.' :: (digits.take 3 ++ after))) ∧
    ∀ literal i, ofLiteral? literal = some i → i.IsWholeMillis := by
  refine ⟨?_, fun literal i => isWholeMillis_of_ofLiteral?⟩
  intro before digits after all three stop
  have stop' : leadingDigits after = [] := by
    cases after with
    | nil => rfl
    | cons c after => simp [leadingDigits, stop c rfl]
  exact ofLiteral?_millis (agreeToMillis_take all three) stop' before

/-- The last leap second of 1969 with an offset and more than nine digits, and one of a year before
the first with a sign. -/
theorem ofLiteral?_take_three_leap :
    let nines := "99999999999".toList
    let first := "1969-12-31T23:59:60".toList
    let second := " -0001-06-30 23:59:60".toList
    (∀ c ∈ nines, c.isDigit = true) ∧ 3 ≤ nines.length ∧
      (∀ c ∈ "+01:30 ".toList.head?, c.isDigit = false) ∧
      ofLiteral? (first ++ '.' :: (nines ++ "+01:30 ".toList)) = some ⟨-5401, 1999000000⟩ ∧
      (∀ c ∈ "Z".toList.head?, c.isDigit = false) ∧
      ofLiteral? (second ++ '.' :: (nines ++ "Z".toList)) = some ⟨-62183116801, 1999000000⟩ ∧
      (⟨-5401, 1999000000⟩ : Instant).IsWholeMillis := by
  intro nines first second
  have all : ∀ c ∈ nines, c.isDigit = true := List.all_eq_true.1 (by decide)
  have three : 3 ≤ nines.length := by decide
  have offset : ∀ c ∈ "+01:30 ".toList.head?, c.isDigit = false := by rintro _ ⟨⟩; decide
  have zone : ∀ c ∈ "Z".toList.head?, c.isDigit = false := by rintro _ ⟨⟩; decide
  obtain ⟨same, whole⟩ := ofLiteral?_take_three
  -- the text with three digits is the one that is evaluated
  have early := (same first nines "+01:30 ".toList all three offset).trans
    (by decide +kernel : _ = some ⟨-5401, 1999000000⟩)
  have signed := (same second nines "Z".toList all three zone).trans
    (by decide +kernel : _ = some ⟨-62183116801, 1999000000⟩)
  exact ⟨all, three, offset, early, zone, signed, whole _ _ early⟩

end Instant

end FilterLang
