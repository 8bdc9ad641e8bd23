import FilterLang.Proofs.Instant.Readers

namespace FilterLang

/-!
# Instant — the marks that tell spellings apart

A spelling of a date is lenient about blanks, signs and the number of digits. What it is strict about
are the marks: the letters and the punctuation that stand between the numbers.

* `Instant.marks` — the marks of a text.
* `Instant.Item.marks`, `Instant.formMarks` — the marks that a part of a spelling and a whole spelling
  can have.
* `Instant.marks_mem_of_ofForm?` — a text that is read by a spelling has marks of this spelling.
* `Instant.withFullMonth_eq_of_mem_formMarks` — the spellings of the tables have no marks in common,
  except that a month may be written with three letters in both.
* `Instant.ofForm?_withFullMonth` — which makes no difference.
* `Instant.ofForm?_unique` — so no text is read differently by two spellings.
-/

namespace Instant

/-! ### Marks of a text -/

/-- Whether a character is a mark: digits, blanks, signs and the point of a fraction are none. -/
def isMark (c : Char) : Bool := !(c.isDigit || isBlank c || c ∈ ['+', '-', '.'])

/-- The marks of a text, in lower case. -/
def marks (text : List Char) : List Char := (text.map Char.toLower).filter isMark

@[simp] theorem marks_append (first second : List Char) :
    marks (first ++ second) = marks first ++ marks second := by
  simp [marks]

theorem marks_cons (c : Char) (rest : List Char) : marks (c :: rest) = marks [c] ++ marks rest :=
  marks_append [c] rest

theorem isMark_of_isDigit {c : Char} (h : c.isDigit = true) : isMark c = false := by
  simp [isMark, h]

theorem isMark_of_isBlank {c : Char} (h : isBlank c = true) : isMark c = false := by
  simp [isMark, h]

/-- Only letters change in lower case, and all letters are marks. -/
theorem toLower_of_not_isMark {c : Char} (h : isMark c = false) : c.toLower = c := by
  unfold Char.toLower
  split
  · next upper =>
    have letter : 65 ≤ c.toNat ∧ c.toNat ≤ 90 := upper
    have digit : c.isDigit = false := by
      by_contra digit
      obtain ⟨-, high⟩ := Char.isDigit_iff_toNat.1 (Bool.of_not_eq_false digit)
      have nine : '9'.toNat = 57 := by decide
      omega
    have blank : isBlank c = false := by
      simp [isBlank, blankRanges]
      omega
    simp only [isMark, digit, blank, Bool.false_or, Bool.not_eq_false', decide_eq_true_eq,
      List.mem_cons, List.not_mem_nil, or_false] at h
    -- what is left is a sign or a point, and none of those is a capital letter
    rcases h with rfl | rfl | rfl <;> exact absurd letter (by decide)
  · rfl

theorem marks_eq_nil {text : List Char} (h : ∀ c ∈ text, isMark c = false) : marks text = [] := by
  rw [marks, List.filter_eq_nil_iff]
  intro c hc
  obtain ⟨d, hd, rfl⟩ := List.mem_map.1 hc
  rw [toLower_of_not_isMark (h d hd), h d hd]
  decide

/-- Digits leave no mark. -/
theorem marks_digits {digits : List Char} (h : ∀ c ∈ digits, c.isDigit = true) :
    marks digits = [] :=
  marks_eq_nil fun c hc => isMark_of_isDigit (h c hc)

/-! ### Marks of a spelling -/

/-- The marks that a part of a spelling can have. -/
def Item.marks : Item → List (List Char)
  | .shortMonth => monthNames.map fun name => name.1.toList
  | .longMonth => monthNames.flatMap fun name => [name.1.toList, name.1.toList ++ name.2.toList]
  | .mark c => [Instant.marks [c]]
  | _ => [[]]

/-- The marks that a text can have that is read by a spelling. -/
def formMarks : List Item → List (List Char)
  | [] => [[]]
  | item :: items => item.marks.flatMap fun first => (formMarks items).map (first ++ ·)

/-- Blanks at the start of a text are no marks. -/
theorem exists_blanks (text : List Char) :
    ∃ blanks, text = blanks ++ trimStart text ∧ ∀ c ∈ blanks, isMark c = false := by
  refine ⟨text.takeWhile isBlank, List.takeWhile_append_dropWhile.symm, fun c hc => ?_⟩
  exact isMark_of_isBlank (List.all_eq_true.1 List.all_takeWhile c hc)

/-- A number takes digits and the blanks before them, which leave no mark. -/
theorem of_number? {width n : Nat} {text rest : List Char} (h : number? width text = some (n, rest)) :
    ∃ read, text = read ++ rest ∧ read ≠ [] ∧ ∀ c ∈ read, isMark c = false := by
  obtain ⟨blanks, parts, plain⟩ := exists_blanks text
  have first : (leadingDigits (trimStart text)).take width <+: trimStart text :=
    (List.take_prefix _ _).trans (List.takeWhile_prefix _)
  have whole := List.prefix_iff_eq_append.1 first
  simp only [number?] at h
  split at h
  · cases h
  · next some =>
    cases h
    -- blanks and digits were read, and neither is a mark
    refine ⟨blanks ++ (leadingDigits (trimStart text)).take width, ?_, ?_, fun c hc => ?_⟩
    · rw [List.append_assoc, whole, ← parts]
    · exact fun none => some (List.append_eq_nil_iff.1 none).2
    · rcases List.mem_append.1 hc with hc | hc
      · exact plain c hc
      · exact isMark_of_isDigit (isDigit_of_mem_leadingDigits (List.mem_of_mem_take hc))

/-- The digits after the sign of a year leave no mark. -/
theorem of_signedYear? {n : Nat} {text rest : List Char} (h : signedYear? text = some (n, rest)) :
    ∃ read, text = read ++ rest ∧ ∀ c ∈ read, isMark c = false := by
  unfold signedYear? at h
  split at h
  · cases h
  · cases h
    exact ⟨leadingDigits text, (leadingDigits_append_afterDigits text).symm, fun c hc =>
      isMark_of_isDigit (isDigit_of_mem_leadingDigits hc)⟩

/-- A year takes blanks, a sign and digits, and none of them is a mark. -/
theorem of_year? {n : Int} {text rest : List Char} (h : year? text = some (n, rest)) :
    ∃ read, text = read ++ rest ∧ ∀ c ∈ read, isMark c = false := by
  obtain ⟨blanks, parts, plain⟩ := exists_blanks text
  -- a sign is no mark, and the digits after it are none
  have signed {sign : Char} (hs : isMark sign = false) {digits : List Char}
      (start : trimStart text = sign :: digits) {m : Nat}
      (read : signedYear? digits = some (m, rest)) :
      ∃ read, text = read ++ rest ∧ ∀ c ∈ read, isMark c = false := by
    obtain ⟨digits, rfl, none⟩ := of_signedYear? read
    refine ⟨blanks ++ sign :: digits, by rw [parts, start]; simp, ?_⟩
    simp only [List.mem_append, List.mem_cons]
    rintro c (hc | rfl | hc)
    · exact plain c hc
    · exact hs
    · exact none c hc
  unfold year? at h
  split at h
  · next start =>
    simp only [Option.map_eq_some_iff, Prod.mk.injEq] at h
    obtain ⟨⟨m, _⟩, read, -, rfl⟩ := h
    exact signed (by decide) start read
  · next start =>
    simp only [Option.map_eq_some_iff, Prod.mk.injEq] at h
    obtain ⟨⟨m, _⟩, read, -, rfl⟩ := h
    exact signed (by decide) start read
  · simp only [Option.map_eq_some_iff, Prod.mk.injEq] at h
    obtain ⟨⟨m, _⟩, read, -, rfl⟩ := h
    obtain ⟨digits, whole, -, none⟩ := of_number? read
    refine ⟨blanks ++ digits, by rw [List.append_assoc, ← whole, ← parts], ?_⟩
    intro c hc
    exact (List.mem_append.1 hc).elim (plain c) (none c)

/-- A word is taken in any case. -/
theorem of_afterWord? {word text rest : List Char} (h : afterWord? word text = some rest) :
    ∃ read, text = read ++ rest ∧ read.map Char.toLower = word := by
  unfold afterWord? at h
  split at h
  · next same => cases h; exact ⟨_, (List.take_append_drop word.length text).symm, same⟩
  · cases h

/-- The name of a month is taken in any case, and its long form is known from the table. -/
theorem of_monthName? {text completion rest : List Char} {month : Nat}
    (h : monthName? text = some (month, completion, rest)) :
    ∃ name ∈ monthNames, completion = name.2.toList ∧
      ∃ read, text = read ++ rest ∧ read.map Char.toLower = name.1.toList := by
  obtain ⟨⟨name, _⟩, hmem, found⟩ := List.exists_of_findSome?_eq_some h
  simp only [Option.map_eq_some_iff, Prod.mk.injEq] at found
  obtain ⟨_, start, -, rfl, rfl⟩ := found
  exact ⟨name, List.fst_mem_of_mem_zipIdx hmem, rfl, of_afterWord? start⟩

/-- All letters of a month are marks. -/
theorem filter_month {name : String × String} (h : name ∈ monthNames) :
    name.1.toList.filter isMark = name.1.toList ∧ name.2.toList.filter isMark = name.2.toList := by
  revert name
  decide +kernel

/-- What a part of a spelling has read has the marks of this part. -/
theorem Item.marks_of_read? {item : Item} {parts parts' : Parts} {text rest : List Char}
    (h : item.read? parts text = some (parts', rest)) :
    ∃ read, text = read ++ rest ∧ Instant.marks read ∈ item.marks := by
  have plain (of : ∃ read, text = read ++ rest ∧ ∀ c ∈ read, isMark c = false) :
      ∃ read, text = read ++ rest ∧ Instant.marks read ∈ [[]] := by
    obtain ⟨read, whole, none⟩ := of
    exact ⟨read, whole, by simp [marks_eq_nil none]⟩
  -- Numbers read blanks, digits and a sign, so the marks of a spelling come from its months and
  -- its punctuation.
  cases item with
  | year =>
    simp only [read?, Option.map_eq_some_iff, Prod.mk.injEq] at h
    obtain ⟨_, read, -, rfl⟩ := h
    exact plain (of_year? read)
  | month | day | hour | minute | second =>
    simp only [read?, Option.map_eq_some_iff, Prod.mk.injEq] at h
    obtain ⟨_, read, -, rfl⟩ := h
    obtain ⟨read, whole, -, none⟩ := of_number? read
    exact plain ⟨read, whole, none⟩
  | fraction =>
    simp only [read?, Option.map_eq_some_iff, Prod.mk.injEq] at h
    obtain ⟨⟨nanos, _⟩, read, -, rfl⟩ := h
    obtain ⟨read, whole, written⟩ := of_fraction (toOption_eq_some_iff.1 read)
    refine plain ⟨read, whole, ?_⟩
    cases written with
    | none => simp
    | some _ digits =>
      simp only [List.mem_cons, forall_eq_or_imp]
      exact ⟨by decide, fun c hc => isMark_of_isDigit (digits c hc)⟩
  | shortMonth =>
    simp only [read?, Option.map_eq_some_iff, Prod.mk.injEq] at h
    obtain ⟨_, found, -, rfl⟩ := h
    obtain ⟨name, hn, -, read, whole, lower⟩ := of_monthName? found
    refine ⟨read, whole, List.mem_map.2 ⟨name, hn, ?_⟩⟩
    rw [Instant.marks, lower, (filter_month hn).1]
  | longMonth =>
    simp only [read?, Option.map_eq_some_iff, Prod.mk.injEq] at h
    obtain ⟨⟨_, completion, after⟩, found, -, rest⟩ := h
    obtain ⟨name, hn, rfl, read, rfl, lower⟩ := of_monthName? found
    obtain ⟨short, full⟩ := filter_month hn
    simp only at rest
    -- the rest of the month name may be left out: the marks are the short name's or the full one's
    cases completed : afterWord? name.2.toList after with
    | none =>
      rw [completed, Option.getD_none] at rest
      subst rest
      exact ⟨read, rfl, List.mem_flatMap.2 ⟨name, hn, by simp [Instant.marks, lower, short]⟩⟩
    | some _ =>
      rw [completed, Option.getD_some] at rest
      subst rest
      obtain ⟨more, rfl, lower'⟩ := of_afterWord? completed
      refine ⟨read ++ more, (List.append_assoc _ _ _).symm, List.mem_flatMap.2 ⟨name, hn, ?_⟩⟩
      simp [Instant.marks, lower, lower', short, full]
  | gap =>
    cases h
    exact plain (exists_blanks text)
  | mark c =>
    simp only [read?] at h
    split at h
    · split at h
      · next same =>
        cases h
        exact ⟨[c], by rw [same]; rfl, List.mem_singleton_self _⟩
      · cases h
    · cases h

/-- A text that is read part by part has marks of these parts. -/
theorem marks_of_readItems? {items : List Item} {parts parts' : Parts} {text : List Char}
    (h : readItems? items parts text = some parts') : marks text ∈ formMarks items := by
  induction items generalizing parts text with
  | nil =>
    simp only [readItems?] at h
    split at h
    · next empty => subst empty; exact List.mem_singleton_self _
    · cases h
  | cons item items ih =>
    obtain ⟨⟨next, rest⟩, first, later⟩ := Option.bind_eq_some_iff.1 h
    obtain ⟨read, rfl, mem⟩ := Item.marks_of_read? first
    rw [marks_append]
    exact List.mem_flatMap.2 ⟨_, mem, List.mem_map.2 ⟨_, ih later, rfl⟩⟩

/-- A text that is read by a spelling has marks of this spelling. -/
theorem marks_mem_of_ofForm? {form : List Item} {text : List Char} {i : Instant}
    (h : ofForm? form text = some i) : marks text ∈ formMarks form := by
  obtain ⟨parts, read, -⟩ := Option.bind_eq_some_iff.1 h
  exact marks_of_readItems? read

/-! ### The tables -/

/-- All spellings of the tables. -/
def forms : List (List Item) := dateTimeForms ++ dayForms

/-- A spelling in which months may have their full names. -/
def withFullMonth (form : List Item) : List Item :=
  form.map fun item => if item = .shortMonth then .longMonth else item

/-- Spellings of the tables that have marks in common are the same, except for the length of the
month's name. -/
theorem withFullMonth_eq_of_mem_formMarks :
    ∀ a ∈ forms, ∀ b ∈ forms, ∀ m ∈ formMarks a, m ∈ formMarks b →
      withFullMonth a = withFullMonth b := by
  decide +kernel

/-- A word is not read where no mark stands. -/
theorem getD_afterWord? {word rest : List Char} {c : Char} (hw : ∀ d ∈ word.head?, isMark d = true)
    (hc : isMark c = false) : (afterWord? word (c :: rest)).getD (c :: rest) = c :: rest := by
  cases word with
  | nil => rfl
  | cons d word =>
    have differ : ¬((c :: rest).take (d :: word).length).map Char.toLower = d :: word := by
      intro same
      simp only [List.length_cons, List.take_succ_cons, List.map_cons, List.cons.injEq] at same
      rw [toLower_of_not_isMark hc] at same
      rw [same.1, hw d rfl] at hc
      cases hc
    rw [afterWord?, if_neg differ, Option.getD_none]

/-- A text that starts with blanks and a number starts with no mark. -/
theorem exists_cons_of_number? {width n : Nat} {text rest : List Char}
    (h : number? width (trimStart text) = some (n, rest)) :
    ∃ c more, text = c :: more ∧ isMark c = false := by
  obtain ⟨blanks, parts, hb⟩ := exists_blanks text
  obtain ⟨digits, whole, ne, hd⟩ := of_number? h
  obtain ⟨c, more, hc⟩ := List.exists_cons_of_ne_nil (List.append_ne_nil_of_right_ne_nil blanks ne)
  refine ⟨c, more ++ rest, by rw [parts, whole, ← List.append_assoc, hc]; rfl, ?_⟩
  exact (List.mem_append.1 (hc ▸ List.mem_cons_self : c ∈ blanks ++ digits)).elim (hb c) (hd c)

/-- What completes the name of a month starts with a mark. -/
theorem isMark_of_mem_head? {name : String × String} (h : name ∈ monthNames) :
    ∀ d ∈ name.2.toList.head?, isMark d = true := by
  intro d hd
  have all := (filter_month h).2
  rw [List.filter_eq_self] at all
  exact all d (List.mem_of_mem_head? hd)

/-- What stands between a month of three letters and the day does not complete the month's name. -/
theorem readItems?_longMonth {items : List Item} {parts parts' : Parts} {text : List Char}
    (h : readItems? (.shortMonth :: .gap :: .day :: items) parts text = some parts') :
    readItems? (.longMonth :: .gap :: .day :: items) parts text = some parts' := by
  obtain ⟨⟨next, rest⟩, first, later⟩ := Option.bind_eq_some_iff.1 h
  simp only [Item.read?, Option.map_eq_some_iff, Prod.mk.injEq] at first
  obtain ⟨⟨month, completion, rest⟩, found, rfl, rfl⟩ := first
  obtain ⟨_, day, -⟩ := Option.bind_eq_some_iff.1 later
  simp only [Item.read?, Option.map_eq_some_iff] at day
  obtain ⟨_, day, -⟩ := day
  obtain ⟨c, more, rfl, plain⟩ := exists_cons_of_number? day
  obtain ⟨name, hn, rfl, -⟩ := of_monthName? found
  refine Option.bind_eq_some_iff.2 ⟨({ parts with month }, c :: more), ?_, later⟩
  simp only [Item.read?, found, Option.map_some, getD_afterWord? (isMark_of_mem_head? hn) plain]

/-- A text that is read with a month of three letters is read in the same way if the full name is
allowed. -/
theorem ofForm?_withFullMonth {form : List Item} {text : List Char} {i : Instant}
    (hf : form ∈ forms) (h : ofForm? form text = some i) :
    ofForm? (withFullMonth form) text = some i := by
  have short {items : List Item}
      (h : ofForm? (.shortMonth :: .gap :: .day :: items) text = some i) :
      ofForm? (.longMonth :: .gap :: .day :: items) text = some i := by
    obtain ⟨parts, read, there⟩ := Option.bind_eq_some_iff.1 h
    exact Option.bind_eq_some_iff.2 ⟨parts, readItems?_longMonth read, there⟩
  simp only [forms, dateTimeForms, dayForms, List.cons_append, List.nil_append, List.mem_cons,
    List.not_mem_nil, or_false] at hf
  rcases hf with rfl | rfl | rfl | rfl | rfl | rfl | rfl | rfl | rfl | rfl
  -- the two spellings that start with a short month are the only ones that change
  case inr.inr.inr.inr.inr.inl => exact short h
  case inr.inr.inr.inr.inr.inr.inl => exact short h
  all_goals exact h

/-- **No two spellings.** Spellings of the tables that read the same text give the same instant. -/
theorem ofForm?_unique {a b : List Item} {text : List Char} {i j : Instant} (ha : a ∈ forms)
    (hb : b ∈ forms) (hi : ofForm? a text = some i) (hj : ofForm? b text = some j) : i = j := by
  have same := withFullMonth_eq_of_mem_formMarks a ha b hb _ (marks_mem_of_ofForm? hi)
    (marks_mem_of_ofForm? hj)
  have first := ofForm?_withFullMonth ha hi
  rw [same, ofForm?_withFullMonth hb hj] at first
  exact (Option.some.inj first).symm

end Instant

end FilterLang
