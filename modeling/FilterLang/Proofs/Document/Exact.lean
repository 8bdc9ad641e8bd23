import Mathlib.Algebra.Order.Ring.Unbundled.Rat
import FilterLang.Proofs.Document.Filter
import FilterLang.Proofs.Document.ReadBack

namespace FilterLang

/-!
# Document — nothing is changed silently

* `Double.value` — the number that a double is.
* `Json.ofDouble_eq_integer_iff` — which numbers are written as integers.
* `Value.IsReadable` — dates that a literal or a document means, and all other values. They are the
  regular values (`Value.isReadable_iff`).
* `Value.exact_or_refused` — the document of a value is read as this value, unless it is refused.
* `Value.ofJson_iso_eq_ok_iff` — which texts are dates of a document.
* `Literal.decode_of_ofJson_iso` — as a date literal, such a text means the same date.
-/

/-! ### Numbers -/

/-- The number that a double is. -/
def Double.value (d : Double) : ℚ := if d.negative then -valueAt d.magnitude else valueAt d.magnitude

/-- A double is a whole number if its size is that many units. -/
theorem Double.value_eq_iff {d : Double} {n : Int} :
    d.value = n ↔ (if d.negative then -(d.size : Int) else d.size) = n * scale := by
  have pos : (scale : ℚ) ≠ 0 := by exact_mod_cast scale_pos.ne'
  have units : valueAt d.magnitude * scale = d.size := valueAt_mul_scale _
  rw [← mul_left_inj' pos, value]
  -- one has too many units to compute with
  clear pos
  generalize scale = one at *
  split
  · rw [neg_mul, units]
    norm_cast
  · rw [units]
    norm_cast

/-- A double is whole if and only if its value is. -/
theorem Double.whole?_eq_some_iff {d : Double} {n : Int} : d.whole? = some n ↔ d.value = n := by
  have pos : (scale : Int) ≠ 0 := by exact_mod_cast scale_pos.ne'
  rw [value_eq_iff, whole?]
  -- whole exactly when the scale divides the size; the sign is put back on the quotient
  split
  · next whole =>
    have parts : ((d.size / scale : Nat) : Int) * scale = d.size := by
      exact_mod_cast Nat.div_mul_cancel (Nat.dvd_of_mod_eq_zero whole)
    rw [Option.some.injEq, ← mul_left_inj' pos, ← parts]
    split
    · rw [neg_mul]
    · rfl
  · next broken =>
    refine iff_of_false (by simp) fun same => broken ?_
    have dvd : (scale : Int) ∣ d.size := by
      split at same
      · exact Int.dvd_neg.1 (Dvd.intro_left n same.symm)
      · exact Dvd.intro_left n same.symm
    exact Nat.mod_eq_zero_of_dvd (Int.natCast_dvd_natCast.1 dvd)

/-- A number is written as an integer if and only if it is whole and smaller than `2 ^ 63`, and the
integer is the number itself. -/
theorem Json.ofDouble_eq_integer_iff {d : Double} {n : Int} :
    ofDouble d = .integer n ↔ d.value = n ∧ |d.value| < 2 ^ 63 := by
  have bound : n.natAbs < integerBound ↔ |(n : ℚ)| < 2 ^ 63 := by
    rw [← Int.cast_abs, ← Nat.cast_natAbs]
    exact_mod_cast Iff.rfl
  constructor
  · intro written
    rcases ofDouble_cases d with ⟨m, whole, small, integer⟩ | ⟨-, real⟩
    · cases integer.symm.trans written
      have value := Double.whole?_eq_some_iff.1 whole
      exact ⟨value, value ▸ bound.1 small⟩
    · cases real.symm.trans written
  · rintro ⟨value, small⟩
    rw [ofDouble, Double.whole?_eq_some_iff.2 value]
    exact if_pos (bound.2 (value ▸ small))

/-- The largest double below `2 ^ 63`, and `2 ^ 63` itself. -/
example :
    (Json.ofDouble ⟨false, 4890909195324358655, by decide⟩).text = "9223372036854774784".toList ∧
      (Json.ofDouble ⟨false, 4890909195324358656, by decide⟩).text =
        "9.223372036854776e+18".toList := by
  decide +kernel

namespace Value

/-! ### Values that are read -/

/-- Whether a value can have been read: a date has to be the one that some literal or some document
means. -/
def IsReadable : Value → Prop
  | date i =>
    (∃ type literal, Literal.decode type literal = .ok (.date i)) ∨ ∃ j, ofJson j = .ok (.date i)
  | _ => True

/-- The values that can have been read are the regular ones. -/
theorem isReadable_iff {v : Value} : v.IsReadable ↔ v.IsRegular := by
  cases v with
  | date i =>
    constructor
    · rintro (⟨type, literal, read⟩ | ⟨j, read⟩)
      · exact (Literal.of_decode read).2
      · exact isRegular_of_ofJson read
    · intro regular
      exact .inl ⟨.of .date, _, Literal.decode_literal (v := .date i) rfl regular⟩
  | bool _ | number _ | text _ | pointer _ _ => exact Iff.rfl

/-- Whether the year of a date is written with four digits. -/
def HasFourDigitYear : Value → Prop
  | date i => 0 ≤ i.day.year ∧ i.day.year ≤ 9999
  | _ => True

instance : DecidablePred HasFourDigitYear
  | date _ => inferInstanceAs (Decidable (_ ∧ _))
  | bool _ | number _ | text _ | pointer _ _ => inferInstanceAs (Decidable True)

/-- The document of a number is read as this number. -/
theorem ofJson_number (d : Double) :
    ∃ w, ofJson (number d).json = .ok w ∧ w.agrees (number d) = true := by
  rcases Json.ofDouble_cases d with ⟨n, whole, -, written⟩ | ⟨-, written⟩
  · rw [json, written]
    exact ofJson_integer whole
  · rw [json, written]
    exact ⟨_, rfl, agrees_self _⟩

/-- **Exact or refused.** The document of a value is read as this value, but a date in a year without
four digits is refused. A number is written as an integer if and only if it is whole and smaller than
`2 ^ 63`. -/
theorem exact_or_refused {v : Value} (h : v.IsReadable) :
    (v.HasFourDigitYear → ∃ w, ofJson v.json = .ok w ∧ w.agrees v = true) ∧
    (¬v.HasFourDigitYear → ∃ misfit, ofJson v.json = .error misfit) ∧
    ∀ d n, (number d).json = .integer n ↔ d.value = n ∧ |d.value| < 2 ^ 63 := by
  refine ⟨fun year => ?_, fun year => ?_, fun d n => Json.ofDouble_eq_integer_iff⟩
  · -- only a date can be refused, and only for its year
    cases v with
    | bool b => exact ⟨_, rfl, agrees_self _⟩
    | number d => exact ofJson_number d
    | text s => exact ⟨_, rfl, agrees_self _⟩
    | date i => exact ⟨_, ofJson_date_of_year (isReadable_iff.1 h) year, agrees_self _⟩
    | pointer targetClass objectId => exact ⟨_, ofJson_pointer _ _, agrees_self _⟩
  · cases v with
    | date i => exact ⟨_, ofJson_date_of_not_year year⟩
    | bool _ | number _ | text _ | pointer _ _ => exact absurd trivial year

/-- A leap second at the end of the year 9999 is read as it was; the minute after it is refused. -/
theorem exact_or_refused_year_end :
    let leap : Value := .date ⟨253402300799, 1999000000⟩
    let late : Value := .date ⟨253402300859, 0⟩
    (leap.IsReadable ∧ ∃ w, ofJson leap.json = .ok w ∧ w.agrees leap = true) ∧
      late.IsReadable ∧ ∃ misfit, ofJson late.json = .error misfit := by
  intro leap late
  let document (iso : String) := Json.object [("__type", .string "Date"), ("iso", .string iso)]
  have leap' : leap.IsReadable :=
    .inr ⟨document "9999-12-31T23:59:60.9999Z", toOption_eq_some_iff.1 (by decide +kernel)⟩
  have late' : late.IsReadable :=
    .inr ⟨document "9999-12-31T23:59:59-00:01", toOption_eq_some_iff.1 (by decide +kernel)⟩
  exact ⟨⟨leap', (exact_or_refused leap').1 (by decide +kernel)⟩, late',
    (exact_or_refused late').2.1 (by decide +kernel)⟩

end Value

/-! ### Dates -/

/-- A text is a date of a document if and only if it is an RFC 3339 date. -/
theorem Value.ofJson_iso_eq_ok_iff {iso : String} {v : Value} :
    ofJson (.object [("__type", .string "Date"), ("iso", .string iso)]) = .ok v ↔
      ∃ i, Instant.IsRfc3339 iso.toList i ∧ v = .date i.truncated := by
  rw [ofJson_iso]
  cases read : Instant.ofRfc3339? iso.toList with
  | error fault =>
    refine iff_of_false (fun h => by cases h) ?_
    rintro ⟨i, written, -⟩
    rw [Instant.ofRfc3339?_eq_ok_iff.2 written] at read
    cases read
  | ok i =>
    constructor
    · intro h
      cases h
      exact ⟨i, Instant.ofRfc3339?_eq_ok_iff.1 read, rfl⟩
    · rintro ⟨j, written, rfl⟩
      obtain rfl := Except.ok.inj (read.symm.trans (Instant.ofRfc3339?_eq_ok_iff.2 written))
      rfl

/-- An RFC 3339 date is a literal of dates, and means its instant to the millisecond. -/
theorem Literal.decode_of_isRfc3339 {type : FieldType} (date : type.kind = .date) {iso : String}
    {i : Instant} (h : Instant.IsRfc3339 iso.toList i) :
    decode type iso = .ok (.date i.truncated) := by
  have read := Instant.ofLiteral?_of_ofRfc3339? (Instant.ofRfc3339?_eq_ok_iff.2 h)
  have decoded := @decode_of_marks type iso.toList _ (by decide) fun c hc => h.mem hc
  rw [String.ofList_toList] at decoded
  rw [decoded]
  simp only [decodeKind, date, read]

/-- **Two readers of dates.** Whatever text is the date of a document, it means the same date as a
literal; and every RFC 3339 date is one. -/
theorem Literal.decode_of_ofJson_iso {type : FieldType} (date : type.kind = .date) (iso : String) :
    let document := Json.object [("__type", .string "Date"), ("iso", .string iso)]
    (∀ v, Value.ofJson document = .ok v → decode type iso = .ok v) ∧
    ∀ i, Instant.IsRfc3339 iso.toList i → Value.ofJson document = .ok (.date i.truncated) := by
  intro document
  constructor
  · intro v h
    obtain ⟨i, written, rfl⟩ := Value.ofJson_iso_eq_ok_iff.1 h
    exact decode_of_isRfc3339 date written
  · intro i h
    exact Value.ofJson_iso_eq_ok_iff.2 ⟨i, h, rfl⟩

/-- A leap second with a small separator, ten digits of a fraction and a typographic minus. -/
theorem Literal.decode_of_ofJson_iso_leap :
    let iso := "2016-12-31t18:59:60.9999999999\u221205:00"
    let date : Value := .date ⟨1483228799, 1999000000⟩
    (FieldType.of .date).kind = .date ∧
      Value.ofJson (.object [("__type", .string "Date"), ("iso", .string iso)]) = .ok date ∧
      decode (.of .date) iso = .ok date := by
  intro iso date
  have read : Value.ofJson (.object [("__type", .string "Date"), ("iso", .string iso)]) = .ok date :=
    toOption_eq_some_iff.1 (by decide +kernel)
  exact ⟨rfl, read, (decode_of_ofJson_iso rfl iso).1 date read⟩

end FilterLang
