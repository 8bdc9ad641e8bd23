import FilterLang.Proofs.Instant.Marks
import FilterLang.Proofs.Instant.ReadBack

namespace FilterLang

/-!
# Instant — the readings of a date literal agree

A date literal is read by the first form that fits. This module shows that there is no choice: all
forms that fit give the same instant.

* `Instant.ofForm?_of_pieces` — the spelling with a day and a time reads what RFC 3339 writes in UTC.
* `Instant.eq_of_ofForm?` — a text that is an RFC 3339 date and has another spelling as well.
* `Instant.eq_of_mem_readings` — any two readings of a text agree.
* `Instant.readings_unambiguous` — so the order of the tables does not count.
-/

/-- If all alternatives that apply give the same result, their order does not count. -/
theorem findSome?_eq_of_perm {α : Type} {first second : List (Option α)} (perm : first.Perm second)
    (agree : ∀ a b, some a ∈ first → some b ∈ first → a = b) :
    first.findSome? id = second.findSome? id := by
  have mem {alternatives : List (Option α)} {a : α} (h : alternatives.findSome? id = some a) :
      some a ∈ alternatives := by
    obtain ⟨_, hmem, rfl⟩ := List.exists_of_findSome?_eq_some h
    exact hmem
  -- what is found is an element of both lists, and any two that are found agree
  cases second' : second.findSome? id with
  | none =>
    rw [List.findSome?_eq_none_iff] at second' ⊢
    exact fun a ha => second' a (perm.mem_iff.1 ha)
  | some b =>
    have hb := perm.mem_iff.2 (mem second')
    cases first' : first.findSome? id with
    | none => exact absurd (List.findSome?_eq_none_iff.1 first' _ hb) (by simp)
    | some a => rw [agree a b (mem first') hb]

namespace Instant

/-! ### A spelling reads the pieces of an RFC 3339 date -/

/-- Four digits are read as a year. -/
theorem year?_append {digits : List Char} (h : AreDigits 4 digits) (rest : List Char) :
    year? (digits ++ rest) = some ((readDigits digits : Int), rest) := by
  obtain ⟨c, more, start, digit⟩ := h.exists_cons (by decide)
  have whole := trimStart_append h (by decide) rest
  -- a digit is no sign
  have unsigned {sign : Char} (hs : sign.isDigit = false) (after : List Char) :
      trimStart (digits ++ rest) ≠ sign :: after := by
    rw [whole, start, List.cons_append]
    intro same
    rw [(List.cons.inj same).1, hs] at digit
    cases digit
  unfold year?
  split
  · next minus => exact absurd minus (unsigned (by decide) _)
  · next plus => exact absurd plus (unsigned (by decide) _)
  · rw [whole, number?_append h (by decide)]
    rfl

/-- A day of RFC 3339 is read by the pieces of a spelling that starts with one. -/
theorem readItems?_isoDay {day : List Char} {d : Day} (h : IsDayText day d) (items : List Item)
    (parts : Parts) (rest : List Char) :
    readItems? (isoDay ++ items) parts (day ++ rest) =
      readItems? items { parts with year := d.year, month := d.month, day := d.day } rest := by
  cases h with
  | intro year month day =>
    have first := year?_append year
    have second := number?_append month (by decide)
    have third := number?_append day (by decide)
    simp only [isoDay, List.cons_append, List.nil_append, List.append_assoc, readItems?, Item.read?,
      first, second, third, Option.map_some, bind, Option.bind, if_true]

/-- A day and a time of day are read by the spelling with both, if what stands between them is. -/
theorem ofForm?_of_pieces {day clock between : List Char} {d : Day} {t : TimeOfDay} {separator : Item}
    (hd : IsDayText day d) (there : d.Exists) (ht : IsClockText clock t)
    (read : ∀ parts, separator.read? parts between = some (parts, clock)) :
    ofForm? (isoDay ++ [separator] ++ clockWithSeconds) (day ++ between) = some (atTime d t) :=
  ofForm?_of_read there ht (fun items => readItems?_isoDay hd items _ _) read

/-! ### RFC 3339 and the spellings -/

/-- A day leaves no marks, as hyphens are none. -/
theorem marks_isDayText {day : List Char} {d : Day} (h : IsDayText day d) : marks day = [] := by
  cases h with
  | @intro _ month day hy hm hd =>
    rw [marks_append, marks_cons '-' (month ++ _), marks_append, marks_cons '-' day,
      marks_digits hy.isDigit, marks_digits hm.isDigit, marks_digits hd.isDigit]
    decide

/-- A time leaves its two colons. -/
theorem marks_isClockText {clock : List Char} {t : TimeOfDay} (h : IsClockText clock t) :
    marks clock = [':', ':'] := by
  cases h with
  | @intro _ minute second fraction _ _ hh hm hs written _ =>
    have point : marks fraction = [] := by
      cases written with
      | none => rfl
      | some _ digits => rw [marks_cons, marks_digits digits]; decide
    rw [marks_append, marks_cons ':' (minute ++ _), marks_append, marks_cons ':' (second ++ _),
      marks_append, marks_digits hh.isDigit, marks_digits hm.isDigit, marks_digits hs.isDigit, point]
    decide

/-- Only the offset that is written as `Z` is dropped, and any other has marks. -/
theorem IsZoneText.utc_or_marks {zone : List Char} {m : Int} (h : IsZoneText zone m) :
    (zone = ['Z'] ∧ m = 0) ∨
      (∃ before last, zone = before ++ [last] ∧ last ≠ 'Z') ∧
        marks zone ∈ [['z'], [':'], ['\u2212', ':']] := by
  cases h with
  | utc => exact .inl ⟨rfl, rfl⟩
  | lower => exact .inr ⟨⟨[], 'z', rfl, by decide⟩, by decide⟩
  -- a numeric offset ends with a digit and keeps its colon and its sign
  | @offset sign hours minutes mark hh hm _ _ =>
    refine .inr ⟨?_, ?_⟩
    · obtain ⟨tens, ones, rfl, digit⟩ := hm.exists_concat (by decide)
      refine ⟨sign :: (hours ++ ':' :: tens), ones, by simp, ?_⟩
      rintro rfl
      exact absurd digit (by decide)
    · rw [marks_cons sign (hours ++ _), marks_append, marks_cons ':' minutes,
        marks_digits hh.isDigit, marks_digits hm.isDigit]
      simp only [List.mem_cons, List.not_mem_nil, or_false] at mark
      rcases mark with rfl | rfl | rfl <;> decide

/-- The letter of UTC is dropped. -/
theorem dropZone_concat (text : List Char) : dropZone (text ++ ['Z']) = text := by
  rw [dropZone, List.getLast?_concat, if_pos rfl, List.dropLast_concat]

theorem dropZone_concat_of_ne (text : List Char) {c : Char} (h : c ≠ 'Z') :
    dropZone (text ++ [c]) = text ++ [c] := by
  rw [dropZone, List.getLast?_concat, if_neg (by simpa using h)]

/-- A spelling of the tables has no marks of an offset, so that it does not read an RFC 3339 date
with an offset that is not dropped. -/
theorem not_mem_formMarks_of_zone :
    ∀ form ∈ forms, ∀ separator ∈ [['t'], []], ∀ zone ∈ [['z'], [':'], ['\u2212', ':']],
      separator ++ ([':', ':'] ++ zone) ∉ formMarks form := by
  decide +kernel

/-- Only two spellings of the tables have the marks of an RFC 3339 date in UTC. -/
theorem eq_of_mem_formMarks_of_utc :
    ∀ form ∈ forms,
      (['t', ':', ':'] ∈ formMarks form → form = isoDay ++ [.mark 'T'] ++ clockWithSeconds) ∧
      ([':', ':'] ∈ formMarks form → form = isoDay ++ [.gap] ++ clockWithSeconds) := by
  decide +kernel

/-- No blank stands before a time. -/
theorem IsClockText.trimStart_eq {clock : List Char} {t : TimeOfDay} (h : IsClockText clock t) :
    trimStart clock = clock := by
  cases h with
  | intro hour _ _ _ _ => exact trimStart_append hour (by decide) _

/-- An RFC 3339 date in UTC that has another spelling without its `Z` means the same in both. -/
theorem atTime_eq_of_ofForm? {day clock : List Char} {separator : Char} {d : Day} {t : TimeOfDay}
    {form : List Item} {j : Instant} (hd : IsDayText day d) (there : d.Exists)
    (hs : separator ∈ ['T', 't', ' ']) (ht : IsClockText clock t) (hf : form ∈ forms)
    (hj : ofForm? form (day ++ separator :: clock) = some j) : atTime d t = j := by
  have mem := marks_mem_of_ofForm? hj
  rw [marks_append, marks_cons separator clock, marks_isDayText hd, marks_isClockText ht] at mem
  obtain ⟨capital, gap⟩ := eq_of_mem_formMarks_of_utc form hf
  simp only [List.mem_cons, List.not_mem_nil, or_false] at hs
  rcases hs with rfl | rfl | rfl
  · obtain rfl := capital mem
    exact Option.some.inj ((ofForm?_of_pieces hd there ht fun _ => rfl).symm.trans hj)
  · -- the spelling asks for a capital `T`
    obtain rfl := capital mem
    rw [ofForm?, List.append_assoc, readItems?_isoDay hd] at hj
    cases hj
  · obtain rfl := gap mem
    have blank (parts : Parts) : Item.gap.read? parts (' ' :: clock) = some (parts, clock) :=
      congrArg (fun rest => some (parts, rest)) ht.trimStart_eq
    exact Option.some.inj ((ofForm?_of_pieces hd there ht blank).symm.trans hj)

/-- What separates the day from the time leaves one mark if it is a letter. -/
theorem marks_separator {separator : Char} (h : separator ∈ ['T', 't', ' ']) :
    marks [separator] ∈ [['t'], []] := by
  simp only [List.mem_cons, List.not_mem_nil, or_false] at h
  rcases h with rfl | rfl | rfl <;> decide

/-- An RFC 3339 date that has another spelling as well means the same in both. -/
theorem eq_of_ofForm? {text : List Char} {form : List Item} {i j : Instant}
    (h : ofRfc3339? text = .ok i) (hf : form ∈ forms) (hj : ofForm? form (dropZone text) = some j) :
    i = j := by
  cases isRfc3339_of_ofRfc3339? h with
  | @intro day clock zone separator d t m hd there hs ht hz =>
    rcases hz.utc_or_marks with ⟨rfl, rfl⟩ | ⟨⟨before, last, rfl, ne⟩, zone⟩
    · -- `Z` is dropped before the form is read, and what is left has no zone
      have dropped : dropZone (day ++ separator :: (clock ++ ['Z'])) = day ++ separator :: clock := by
        rw [← List.cons_append, ← List.append_assoc, dropZone_concat]
      rw [dropped] at hj
      rw [Int.neg_zero, addMinutes_zero]
      exact atTime_eq_of_ofForm? hd there hs ht hf hj
    · -- any other zone stays, and leaves marks that no form can read
      have whole : day ++ separator :: (clock ++ (before ++ [last])) =
          day ++ separator :: (clock ++ before) ++ [last] := by simp
      rw [whole, dropZone_concat_of_ne _ ne, ← whole] at hj
      have mem := marks_mem_of_ofForm? hj
      rw [marks_append, marks_cons separator (clock ++ _), marks_append, marks_isDayText hd,
        marks_isClockText ht] at mem
      exact absurd mem (not_mem_formMarks_of_zone form hf _ (marks_separator hs) _ zone)

/-! ### All readings -/

/-- A day has no `Z`, so that dropping one makes no difference to the spellings without a time. -/
theorem dropZone_of_ofForm? {form : List Item} {text : List Char} {i : Instant}
    (hf : form ∈ dayForms) (h : ofForm? form text = some i) : dropZone text = text := by
  have none : ∀ form ∈ dayForms, ∀ m ∈ formMarks form, 'z' ∉ m := by decide +kernel
  rw [dropZone]
  split
  · next last =>
    obtain ⟨before, rfl⟩ := List.getLast?_eq_some_iff.1 last
    have mem := marks_mem_of_ofForm? h
    rw [marks_append] at mem
    exact absurd (List.mem_append_right _ (by decide)) (none form hf _ mem)
  · rfl

/-- A reading is one of RFC 3339 or one by a spelling; the days without a time lose no letter, as
they end with none. -/
theorem of_mem_readings {text : List Char} {i : Instant} (h : some i ∈ readings text) :
    ofRfc3339? text = .ok i ∨ ∃ form ∈ forms, ofForm? form (dropZone text) = some i := by
  simp only [readings, List.cons_append, List.mem_cons, List.mem_append, List.mem_map] at h
  rcases h with rfc | ⟨form, hf, read⟩ | ⟨form, hf, read⟩
  · exact .inl (toOption_eq_some_iff.1 rfc.symm)
  · exact .inr ⟨form, List.mem_append_left _ hf, read⟩
  · exact .inr ⟨form, List.mem_append_right _ hf, (dropZone_of_ofForm? hf read).symm ▸ read⟩

/-- Any two readings of a text are the same instant. -/
theorem eq_of_mem_readings {text : List Char} {i j : Instant} (hi : some i ∈ readings text)
    (hj : some j ∈ readings text) : i = j := by
  rcases of_mem_readings hi with first | ⟨a, ha, first⟩ <;>
    rcases of_mem_readings hj with second | ⟨b, hb, second⟩
  · exact Except.ok.inj (first.symm.trans second)
  · exact eq_of_ofForm? first hb second
  · exact (eq_of_ofForm? second ha first).symm
  · exact ofForm?_unique ha hb first second

/-! ### The order of the tables -/

/-- The readings of a text with tables of spellings. -/
def readingsBy (dateTimes days : List (List Item)) (text : List Char) : List (Option Instant) :=
  (ofRfc3339? text).toOption :: dateTimes.map (ofForm? · (dropZone text)) ++
    days.map (ofForm? · text)

/-- The instant that a date literal writes, with tables of spellings. -/
def ofLiteralBy? (dateTimes days : List (List Item)) (literal : List Char) : Option Instant :=
  ((readingsBy dateTimes days (trim literal)).findSome? id).map truncated

/-- With the tables of the language, this is what a literal writes. -/
theorem ofLiteralBy?_forms (literal : List Char) :
    ofLiteralBy? dateTimeForms dayForms literal = ofLiteral? literal := rfl

/-- **One reading.** Readings of a date literal agree, so that it means the same with the spellings in
any order. -/
theorem readings_unambiguous (literal : List Char) :
    (∀ i j, some i ∈ readings (trim literal) → some j ∈ readings (trim literal) →
      i.truncated = j.truncated) ∧
    ∀ dateTimes days, dateTimes.Perm dateTimeForms → days.Perm dayForms →
      ofLiteralBy? dateTimes days literal = ofLiteral? literal := by
  refine ⟨fun i j hi hj => congrArg truncated (eq_of_mem_readings hi hj), ?_⟩
  intro dateTimes days dateTimes' days'
  have perm : (readings (trim literal)).Perm (readingsBy dateTimes days (trim literal)) :=
    (((dateTimes'.map _).append (days'.map _)).cons _).symm
  rw [← ofLiteralBy?_forms, ofLiteralBy?,
    ← findSome?_eq_of_perm perm fun _ _ => eq_of_mem_readings]
  rfl

/-- A blank may separate the time in RFC 3339 and in a spelling of the tables. -/
theorem readings_unambiguous_blank :
    let literal := " 2016-12-31 23:59:60.2509Z".toList
    let leap : Instant := ⟨1483228799, 1250900000⟩
    (readings (trim literal)).take 3 = [some leap, none, some leap] ∧
      leap.truncated = leap.truncated ∧
      ofLiteralBy? dateTimeForms.reverse dayForms.reverse literal = ofLiteral? literal := by
  intro literal leap
  have both : (readings (trim literal)).take 3 = [some leap, none, some leap] := by decide +kernel
  have mem : some leap ∈ readings (trim literal) :=
    List.mem_of_mem_take (both ▸ List.mem_cons_self)
  have agree := readings_unambiguous literal
  exact ⟨both, agree.1 _ _ mem mem, agree.2 _ _ (List.reverse_perm _) (List.reverse_perm _)⟩

end Instant

end FilterLang
