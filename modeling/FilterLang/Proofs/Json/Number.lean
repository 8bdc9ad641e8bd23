import FilterLang.Proofs.Double.Whole
import FilterLang.Proofs.Json.Reads
import FilterLang.Proofs.Text.Digits

namespace FilterLang

/-!
# Json — numbers that are written are read

* `Json.unsignedNumber_append` — digits that fit in 64 bits are collected as the number they write.
* `Json.unsignedNumber_plain`, `Json.unsignedNumber_scientific` — a decimal is read as its digits and
  its exponent, however it is written.
* `Json.reads_number_integer` — an integer is read as it was.
* `Json.reads_number_ofDouble` — any other number is computed again from its shortest decimal.
-/

namespace Json

variable {negative : Bool} {rest : List Char}

/-! ### What follows a number -/

theorem EndsValue.leadingDigits (h : EndsValue rest) : leadingDigits rest = [] := by
  cases rest with
  | nil => rfl
  | cons c rest =>
    have digit : c.isDigit = false := by
      rcases h c rfl with rfl | rfl | rfl <;> decide
    simp [FilterLang.leadingDigits, digit]

/-- At the end of a value, nothing is left of a number. -/
theorem finishReal_end (ends : EndsValue rest) (significand : Nat) (shift : Int) :
    finishReal negative significand shift rest =
      (realOf negative significand shift).map (·, rest) := by
  cases rest with
  | nil => rfl
  | cons c rest =>
    have mark : ¬(c = 'e' ∨ c = 'E') := by
      rcases ends c rfl with rfl | rfl | rfl <;> decide
    rw [finishReal, if_neg mark]

/-- At the end of a value, digits are an integer, or a double if they are too many for a negative
one. -/
theorem afterInteger_end (ends : EndsValue rest) (significand : Nat) :
    afterInteger negative significand rest =
      if negative then
        if 0 < significand ∧ significand ≤ integerBound then .ok (.integer (-significand), rest)
        else .ok (.real ⟨true, (Double.ofNat significand).magnitude⟩, rest)
      else .ok (.integer significand, rest) := by
  cases rest with
  | nil => rfl
  | cons c rest =>
    rcases ends c rfl with rfl | rfl | rfl <;> rfl

/-! ### Digits -/

theorem collect_of_no_digits (none : leadingDigits rest = []) (significand : Nat) :
    collect significand rest = (significand, 0, rest) := by
  cases rest with
  | nil => rfl
  | cons c rest =>
    have digit : c.isDigit = false := by
      cases h : c.isDigit with
      | false => rfl
      | true => simp [FilterLang.leadingDigits, h] at none
    simp [collect, digit]

/-- Digits are collected while the number that they write fits. -/
theorem collect_append {digits : List Char} (all : ∀ c ∈ digits, c.isDigit = true)
    (none : leadingDigits rest = []) {significand : Nat}
    (fits : significand * 10 ^ digits.length + readDigits digits < significandBound) :
    collect significand (digits ++ rest) =
      (significand * 10 ^ digits.length + readDigits digits, digits.length, rest) := by
  induction digits generalizing significand with
  | nil => simpa [readDigits] using collect_of_no_digits none significand
  | cons c digits ih =>
    obtain ⟨first, later⟩ := List.forall_mem_cons.1 all
    have whole := readDigits_append [c] digits
    rw [List.singleton_append, readDigits_singleton] at whole
    -- the digit is added before the others are collected
    have total : significand * 10 ^ (c :: digits).length + readDigits (c :: digits) =
        (significand * 10 + (c.toNat - '0'.toNat)) * 10 ^ digits.length + readDigits digits := by
      rw [whole, List.length_cons, Nat.pow_succ', Nat.add_mul, Nat.mul_assoc, Nat.add_assoc]
    rw [total] at fits ⊢
    have next : significand * 10 + (c.toNat - '0'.toNat) < significandBound :=
      Nat.lt_of_le_of_lt (Nat.le_trans (Nat.le_mul_of_pos_right _ (Nat.pow_pos (by decide)))
        (Nat.le_add_right _ _)) fits
    simp only [List.cons_append, collect, first, next, and_self, if_true, ih later fits,
      List.length_cons]

/-- A numeral is collected as the number that it writes. -/
theorem unsignedNumber_append {digits : List Char} (numeral : IsNumeral digits)
    (fits : readDigits digits < significandBound) (none : leadingDigits rest = []) :
    unsignedNumber negative (digits ++ rest) = afterInteger negative (readDigits digits) rest := by
  -- a zero is no part of a longer number
  rcases numeral.first with rfl | first
  · show (if leadingDigits rest = [] then afterInteger negative 0 rest else _) = _
    rw [if_pos none]
    rfl
  · obtain ⟨c, more, rfl⟩ := List.exists_cons_of_ne_nil numeral.ne_nil
    have zero : c ≠ '0' := fun same => first (congrArg some same)
    have digit := numeral.isDigit c List.mem_cons_self
    have collected : collect 0 (c :: more ++ rest) = _ :=
      collect_append numeral.isDigit none (by simpa using fits)
    rw [Nat.zero_mul, Nat.zero_add, List.cons_append] at collected
    rw [List.cons_append, unsignedNumber, if_pos digit, collected]
    · exact if_pos none
    · exact zero

/-! ### Integers -/

/-- A number without a sign starts with a digit. -/
theorem number_of_isDigit {c : Char} {more : List Char} (h : c.isDigit = true) :
    number (c :: more) = unsignedNumber false (c :: more) := by
  rw [number]
  intro rest same
  rw [(List.cons.inj same).1] at h
  exact absurd h (by decide)

/-- The digits of a number after its sign. -/
theorem number_append {digits more : List Char} (numeral : IsNumeral digits) :
    number ((if negative then ['-'] else []) ++ (digits ++ more)) =
      unsignedNumber negative (digits ++ more) := by
  cases negative with
  | true => rfl
  | false =>
    obtain ⟨c, others, rfl⟩ := List.exists_cons_of_ne_nil numeral.ne_nil
    exact number_of_isDigit (numeral.isDigit c List.mem_cons_self)

/-- An integer is written with a sign if it is negative, and with the digits of its size. -/
theorem integerText_eq (n : Int) :
    integerText n = (if decide (n < 0) then ['-'] else []) ++ digitText n.natAbs := by
  by_cases negative : n < 0 <;> simp [integerText, negative]

/-- An integer is read as it was. -/
theorem reads_number_integer {n : Int} (h : n.natAbs < integerBound) :
    Reads number (integerText n) (.ok (.integer n)) := by
  intro rest ends
  have fits : readDigits (digitText n.natAbs) < significandBound := by
    rw [readDigits_digitText]
    simp only [integerBound, significandBound] at *
    omega
  rw [integerText_eq, List.append_assoc, number_append (isNumeral_digitText _),
    unsignedNumber_append (isNumeral_digitText _) fits ends.leadingDigits, readDigits_digitText,
    afterInteger_end ends]
  -- the reader puts the sign back last, with one more number below zero than above
  by_cases negative : n < 0
  · have inside : 0 < n.natAbs ∧ n.natAbs ≤ integerBound := by omega
    have same : -(n.natAbs : Int) = n := by omega
    simp only [negative, decide_true, if_true, if_pos inside, same]
    rfl
  · have same : (n.natAbs : Int) = n := by omega
    simp only [negative, decide_false, Bool.false_eq_true, if_false, same]
    rfl

/-! ### Decimals -/

/-- An exponent with its sign. -/
theorem exponent_append (none : leadingDigits rest = []) (e : Int) :
    exponent ((if 0 ≤ e then '+' else '-') :: (digitText e.natAbs ++ rest)) = .ok (e, rest) := by
  have numeral := isNumeral_digitText e.natAbs
  have leading := leadingDigits_append numeral.isDigit none
  have after := afterDigits_append numeral.isDigit none
  obtain ⟨c, more, digits⟩ := List.exists_cons_of_ne_nil numeral.ne_nil
  have value : readDigits (c :: more) = e.natAbs := digits ▸ readDigits_digitText _
  rw [digits, List.cons_append] at leading after ⊢
  by_cases sign : 0 ≤ e
  · have same : (e.natAbs : Int) = e := by omega
    simp only [exponent, sign, if_true, leading, after, value, same, Bool.false_eq_true, if_false]
  · have same : -(e.natAbs : Int) = e := by omega
    simp only [exponent, sign, if_false, leading, after, value, if_true, same]

/-- Digits after a point. -/
theorem fractionReal_append {places : List Char} (ne : places ≠ [])
    (all : ∀ c ∈ places, c.isDigit = true) (none : leadingDigits rest = []) {significand : Nat}
    (fits : significand * 10 ^ places.length + readDigits places < significandBound) (shift : Int) :
    fractionReal negative significand shift (places ++ rest) =
      finishReal negative (significand * 10 ^ places.length + readDigits places)
        (shift - places.length) rest := by
  obtain ⟨c, more, rfl⟩ := List.exists_cons_of_ne_nil ne
  rw [fractionReal, collect_append all none fits, List.length_cons]
  exact congrArg (finishReal negative _ _) (afterDigits_eq_self none)

/-- A decimal that is written out with a point, in two. -/
theorem plain_negSucc (digits k : Nat) :
    ∃ whole places, Decimal.plain ⟨digits, .negSucc k⟩ = whole ++ '.' :: places ∧ IsNumeral whole ∧
      places.length = k + 1 ∧ whole ++ places = padded (k + 2) digits := by
  have long := le_length_padded (k + 2) digits
  generalize point : (padded (k + 2) digits).length - (k + 1) = p
  have parts := List.take_append_drop p (padded (k + 2) digits)
  have places : ((padded (k + 2) digits).drop p).length = k + 1 := by
    rw [List.length_drop]
    omega
  refine ⟨_, _, by rw [← point]; rfl, ?_, places, parts⟩
  refine ⟨?_, fun c hc => isDigit_of_mem_padded (List.mem_of_mem_take hc), ?_⟩
  · rw [Ne, List.take_eq_nil_iff, not_or]
    refine ⟨by omega, ?_⟩
    rintro none
    rw [none] at long
    simp at long
  · by_cases short : (digitText digits).length ≤ k + 1
    · -- there is a single digit before the point, and it was filled in
      have zeros : k + 2 - (digitText digits).length = k + 1 - (digitText digits).length + 1 := by omega
      have one : p = 1 := by
        rw [padded, List.length_append, List.length_replicate] at point
        omega
      rw [padded, zeros, List.replicate_succ, one]
      exact .inl rfl
    · have none : k + 2 - (digitText digits).length = 0 := by omega
      rw [padded, none, List.replicate_zero, List.nil_append, List.head?_take, if_neg (by omega)]
      refine .inr (head?_digitText ?_)
      rintro rfl
      exact short (by simp [digitText])

/-- A decimal that is written out with a point is read as its digits and its exponent. -/
theorem unsignedNumber_plain {digits k : Nat} (fits : digits < significandBound)
    (ends : EndsValue rest) :
    unsignedNumber negative (Decimal.plain ⟨digits, .negSucc k⟩ ++ rest) =
      (realOf negative digits (.negSucc k)).map (·, rest) := by
  obtain ⟨whole, places, written, numeral, length, parts⟩ := plain_negSucc digits k
  -- the point only moves the exponent: all digits are collected in one number
  have value : readDigits whole * 10 ^ places.length + readDigits places = digits := by
    rw [← readDigits_append, parts, readDigits_padded]
  have all : ∀ c ∈ places, c.isDigit = true := by
    intro c hc
    exact isDigit_of_mem_padded (parts ▸ List.mem_append_right _ hc : c ∈ padded (k + 2) digits)
  have ne : places ≠ [] := List.ne_nil_of_length_pos (by omega)
  have first : readDigits whole < significandBound := by
    have shorter := readDigits_le_append whole places
    rw [parts, readDigits_padded] at shorter
    exact Nat.lt_of_le_of_lt shorter fits
  rw [written, List.append_assoc, List.cons_append, unsignedNumber_append numeral first rfl,
    afterInteger, fractionReal_append ne all ends.leadingDigits (value.symm ▸ fits), value, length,
    finishReal_end ends]
  exact congrArg (fun shift => (realOf negative digits shift).map (·, rest)) (Int.zero_sub _)

/-- A number that ends with an exponent. -/
theorem finishReal_exponent (ends : EndsValue rest) (significand : Nat) (shift e : Int) :
    finishReal negative significand shift
        ('e' :: (if 0 ≤ e then '+' else '-') :: (digitText e.natAbs ++ rest)) =
      (realOf negative significand (shift + e)).map (·, rest) := by
  rw [finishReal, if_pos (.inl rfl), exponent_append ends.leadingDigits]
  rfl

/-- A decimal that is written with an exponent, in its parts. -/
theorem scientific_eq {d : Decimal} {c : Char} {more : List Char}
    (written : digitText d.digits = c :: more) :
    d.scientific =
      [c] ++ ((if more = [] then [] else '.' :: more) ++
        'e' :: (if 0 ≤ d.exponent + more.length then '+' else '-') ::
          digitText (d.exponent + more.length).natAbs) := by
  have length : (c :: more).length - 1 = more.length := rfl
  have mark (e : Int) : (if 0 ≤ e then ['e', '+'] else ['e', '-']) =
      ['e', if 0 ≤ e then '+' else '-'] := by
    split <;> rfl
  simp only [Decimal.scientific, written, length, mark]
  cases more <;> simp

/-- A decimal that is written with an exponent is read as its digits and its exponent. -/
theorem unsignedNumber_scientific {d : Decimal} (fits : d.digits < significandBound)
    (ends : EndsValue rest) :
    unsignedNumber negative (d.scientific ++ rest) =
      (realOf negative d.digits d.exponent).map (·, rest) := by
  obtain ⟨c, more, written⟩ := List.exists_cons_of_ne_nil (digitText_ne_nil d.digits)
  have digit : ∀ a ∈ c :: more, a.isDigit = true := by
    intro a ha
    exact isDigit_of_mem_digitText (written ▸ ha)
  have value : readDigits [c] * 10 ^ more.length + readDigits more = d.digits := by
    rw [← readDigits_append, List.singleton_append, ← written, readDigits_digitText]
  have numeral := isNumeral_singleton (digit c List.mem_cons_self)
  have first : readDigits [c] < significandBound := by
    have shorter := readDigits_le_append [c] more
    rw [List.singleton_append, ← written, readDigits_digitText] at shorter
    exact Nat.lt_of_le_of_lt shorter fits
  rw [scientific_eq written, List.append_assoc, List.append_assoc]
  -- one digit and the exponent, or a point after the first digit and the exponent shifted by it
  by_cases single : more = []
  · subst single
    have same : readDigits [c] = d.digits := by simpa [readDigits] using value
    rw [if_pos rfl, List.nil_append, unsignedNumber_append numeral first rfl, same]
    apply (finishReal_exponent ends d.digits 0 _).trans
    simp
  · have later : ∀ a ∈ more, a.isDigit = true := fun a ha => digit a (List.mem_cons_of_mem _ ha)
    rw [if_neg single, unsignedNumber_append numeral first (by rfl), List.cons_append, afterInteger,
      fractionReal_append single later (by rfl) (value.symm ▸ fits), value]
    apply (finishReal_exponent ends d.digits _ _).trans
    rw [show 0 - (more.length : Int) + (d.exponent + more.length) = d.exponent by omega]

/-! ### Doubles -/

/-- A double that is not written as an integer is no whole number below `2 ^ 63`. -/
theorem not_whole_of_ofDouble {d : Double} (h : ofDouble d = .real d) :
    ¬(Double.scale ∣ d.size ∧ d.size / Double.scale < integerBound) := by
  rintro ⟨whole, small⟩
  obtain ⟨n, number⟩ := Double.whole?_of_dvd whole
  have size := (Double.of_whole? number).2.1
  simp only [ofDouble, number, size, small, if_true] at h
  cases h

/-- A double that is not written as an integer has a point with digits after it, or an exponent. -/
theorem jsonText_eq {d : Double} (h : ofDouble d = .real d) :
    d.jsonText = d.signText ++ (Decimal.shortest .even d.magnitude).scientific ∨
      ∃ digits k, Decimal.shortest .even d.magnitude = ⟨digits, .negSucc k⟩ ∧
        d.jsonText = d.signText ++ Decimal.plain ⟨digits, .negSucc k⟩ := by
  simp only [Double.jsonText]
  cases written : Decimal.shortest .even d.magnitude with
  | mk digits exponent =>
    dsimp only
    by_cases outside : exponent + (Decimal.width digits : Int) ≤ -5 ∨
        16 < exponent + (Decimal.width digits : Int)
    · exact .inl (by rw [if_pos outside])
    · right
      rw [if_neg outside]
      cases exponent with
      | negSucc k => exact ⟨digits, k, rfl, by rw [if_pos (Int.negSucc_lt_zero k)]⟩
      | ofNat e =>
        -- without a point, the double would be a whole number below `2 ^ 63`
        have short : e + Decimal.width digits ≤ 16 := by
          rw [Int.ofNat_eq_natCast] at outside
          omega
        obtain ⟨whole, small⟩ := Double.whole_of_shortest written short
        exact absurd ⟨whole, Nat.lt_trans small (by decide)⟩ (not_whole_of_ofDouble h)

/-- The text of a double, in its sign, the digits at its start and what follows them. -/
theorem exists_numeral_of_ofDouble {d : Double} (h : ofDouble d = .real d) :
    ∃ whole more, d.jsonText = d.signText ++ (whole ++ more) ∧ IsNumeral whole ∧
      ∀ rest, EndsValue rest → unsignedNumber d.negative (whole ++ (more ++ rest)) =
        (realOf d.negative (Decimal.shortest .even d.magnitude).digits
          (Decimal.shortest .even d.magnitude).exponent).map (·, rest) := by
  have fits : (Decimal.shortest .even d.magnitude).digits < significandBound :=
    Nat.lt_of_le_of_lt (Decimal.digits_shortest_le .even d.magnitude.isLt) (by decide)
  -- The text is scientific or plain, and either starts with a numeral that the reader takes first.
  rcases jsonText_eq h with scientific | ⟨digits, k, written, plain⟩
  · obtain ⟨c, more, digits⟩ :=
      List.exists_cons_of_ne_nil (digitText_ne_nil (Decimal.shortest .even d.magnitude).digits)
    have digit : c.isDigit = true := isDigit_of_mem_digitText (digits ▸ List.mem_cons_self)
    refine ⟨[c], _, by rw [scientific, scientific_eq digits], isNumeral_singleton digit, ?_⟩
    intro rest ends
    rw [← List.append_assoc, ← scientific_eq digits, unsignedNumber_scientific fits ends]
  · rw [written] at fits ⊢
    obtain ⟨whole, places, parts, numeral, -, -⟩ := plain_negSucc digits k
    refine ⟨whole, _, by rw [plain, parts], numeral, fun rest ends => ?_⟩
    rw [← List.append_assoc, ← parts, unsignedNumber_plain fits ends]

/-- What a number is read as that was written: an integer as it was, and any other number is
computed again from its shortest decimal. -/
def reread : Json → Except Fault Json
  | real d =>
    realOf d.negative (Decimal.shortest .even d.magnitude).digits
      (Decimal.shortest .even d.magnitude).exponent
  | j => .ok j

/-- The number of a double is an integer, or the double itself. -/
theorem ofDouble_cases (d : Double) :
    (∃ n ∈ d.whole?, n.natAbs < integerBound ∧ ofDouble d = .integer n) ∨
      (¬∃ n ∈ d.whole?, n.natAbs < integerBound) ∧ ofDouble d = .real d := by
  simp only [ofDouble]
  cases whole : d.whole? with
  | none => simp
  | some n => by_cases small : n.natAbs < integerBound <;> simp [small]

/-- A double is written with a sign or a digit at first. -/
theorem exists_start_ofDouble (d : Double) :
    ∃ c more, (ofDouble d).text = c :: more ∧ (c = '-' ∨ c.isDigit = true) := by
  have signed {negative : Bool} {whole more : List Char} (numeral : IsNumeral whole) :
      ∃ c rest, (if negative then ['-'] else []) ++ (whole ++ more) = c :: rest ∧
        (c = '-' ∨ c.isDigit = true) := by
    obtain ⟨c, others, rfl⟩ := List.exists_cons_of_ne_nil numeral.ne_nil
    cases negative with
    | true => exact ⟨_, _, rfl, .inl rfl⟩
    | false => exact ⟨_, _, rfl, .inr (numeral.isDigit c List.mem_cons_self)⟩
  -- an integer and a real both are a sign and a numeral
  rcases ofDouble_cases d with ⟨n, -, -, written⟩ | ⟨-, written⟩
  · rw [written, text, integerText_eq, ← List.append_nil (digitText n.natAbs)]
    exact signed (isNumeral_digitText _)
  · obtain ⟨whole, more, parts, numeral, -⟩ := exists_numeral_of_ofDouble written
    rw [written, text, parts, Double.signText]
    exact signed numeral

/-- A number that is written is read. -/
theorem reads_number_ofDouble (d : Double) :
    Reads number (ofDouble d).text (ofDouble d).reread := by
  rcases ofDouble_cases d with ⟨n, -, small, written⟩ | ⟨-, written⟩
  · rw [written]
    exact reads_number_integer small
  · obtain ⟨whole, more, parts, numeral, taken⟩ := exists_numeral_of_ofDouble written
    rw [written]
    intro rest ends
    rw [text, parts, Double.signText, List.append_assoc, List.append_assoc, number_append numeral,
      taken rest ends]
    rfl

end Json

end FilterLang
