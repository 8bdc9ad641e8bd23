import FilterLang.Double.Shortest

namespace FilterLang

/-!
# Double — what is written reads back

Main statements:

* `nearest_units` — rounding keeps every magnitude.
* `Decimal.place_shortest` — the shortest decimal of a magnitude lies nearest to it.
* `Decimal.unsigned?_plain` — a decimal that is written out is read at the same place.
* `Double.ofText?_text` — the text of a double is read as the same double.
-/

/-! ### Rounding keeps magnitudes -/

/-- An exact quotient is not rounded. -/
theorem roundedQuotient_mul (q : Nat) {d : Nat} (h : 0 < d) : roundedQuotient (q * d) d = q := by
  simp [roundedQuotient, Nat.mul_div_cancel _ h, h]

/-- How many bits the units of a normal number have. -/
theorem log2_units {n : Nat} (h : fractionCount ≤ n) :
    (units n).log2 = 52 + (n / fractionCount - 1) := by
  have hn : ¬n < fractionCount := by omega
  have hlt : n % fractionCount < fractionCount := Nat.mod_lt _ (by decide)
  simp only [units, hn, if_false]
  generalize n / fractionCount - 1 = e
  generalize n % fractionCount = f at *
  have hp : 0 < Nat.pow 2 e := Nat.pow_pos (by decide)
  -- The significand runs from `2^52` up to `2^53`, so `units n` lies between two powers of two.
  have top : Nat.pow 2 (52 + e) = fractionCount * Nat.pow 2 e := Nat.pow_add 2 52 e
  have next : Nat.pow 2 (52 + e + 1) = 2 * fractionCount * Nat.pow 2 e := by
    rw [show Nat.pow 2 (52 + e + 1) = Nat.pow 2 (52 + e) * 2 from rfl, top, Nat.mul_comm _ 2,
      Nat.mul_assoc]
  rw [Nat.log2_eq_iff (Nat.mul_ne_zero (by simp [fractionCount]) (by omega))]
  refine ⟨?_, ?_⟩
  · exact Nat.le_trans (Nat.le_of_eq top) (Nat.mul_le_mul_right _ (by omega))
  · exact Nat.lt_of_lt_of_eq (Nat.mul_lt_mul_of_pos_right (by omega) hp) next.symm

/-- A magnitude is nearest to itself. -/
theorem nearest_units (n : Nat) {d : Nat} (hd : 0 < d) : nearest (units n * d) d = n := by
  simp only [nearest, Nat.mul_div_cancel _ hd]
  by_cases h : n < fractionCount
  · -- below `2^52` the spacing is one unit, so the division is exact as it stands
    have unit : units n = n := by simp [units, h]
    have small : n.log2 - 52 = 0 := by
      by_cases hz : n = 0
      · simp [hz]
      · have := (Nat.log2_lt hz).2 (show n < 2 ^ 52 from h)
        omega
    rw [unit, small]
    simp [roundedQuotient_mul _ hd]
  · -- from there on the spacing is the power of two that `units` multiplied by
    rw [log2_units (by omega), Nat.add_sub_cancel_left]
    simp only [units, h, if_false]
    have hp : 0 < Nat.pow 2 (n / fractionCount - 1) := Nat.pow_pos (by decide)
    rw [Nat.mul_assoc, Nat.mul_comm _ d, roundedQuotient_mul _ (Nat.mul_pos hd hp)]
    have := Nat.div_add_mod n fractionCount
    have h1 : 1 ≤ n / fractionCount := (Nat.le_div_iff_mul_le (by decide)).2 (by omega)
    simp only [fractionCount] at *
    omega

theorem units_pos {n : Nat} (h : n ≠ 0) : 0 < units n := by
  unfold units
  split
  · omega
  · exact Nat.mul_pos (Nat.add_pos_left (by decide) _) (Nat.pow_pos (by decide))

namespace Decimal

/-! ### The search hits the number -/

/-- A decimal with digits behind the point is rounded as a fraction of units, unless it is too small
for that. -/
theorem place_negSucc {digits e : Nat} (h0 : digits ≠ 0) (h : 3 * (e + 1) ≤ digits.log2 + 1081) :
    place ⟨digits, .negSucc e⟩ = nearest (digits * Double.scale) (Nat.pow 10 (e + 1)) := by
  simp only [place, h0, if_false, Nat.not_lt.2 h]

theorem place_of_digits_eq_zero {d : Decimal} (h : d.digits = 0) : d.place = 0 := by
  simp [place, h]

/-- Each factor of five takes two bits at least. -/
theorem le_log2_fives {u : Nat} (h : 0 < u) (k : Nat) : 2 * k ≤ (u * Nat.pow 5 k).log2 := by
  have five : 0 < Nat.pow 5 k := Nat.pow_pos (by decide)
  apply (Nat.le_log2 (Nat.ne_of_gt (Nat.mul_pos h five))).2
  rw [Nat.pow_mul]
  exact Nat.le_trans (Nat.pow_le_pow_left (by decide) k) (Nat.le_mul_of_pos_left _ h)

/-- A number of units is a decimal again when halves are written as fives. -/
theorem place_fives {n k e : Nat} (h : n ≠ 0) (hk : k = e + 1) (small : k ≤ 1081)
    (unit : Double.scale = Nat.pow 2 k) : place ⟨units n * Nat.pow 5 k, .negSucc e⟩ = n := by
  have notTiny := le_log2_fives (units_pos h) k
  have five : 0 < Nat.pow 5 k := Nat.pow_pos (by decide)
  have ten : Nat.pow 5 k * Nat.pow 2 k = Nat.pow 10 k := (Nat.mul_pow 5 2 k).symm
  rw [place_negSucc (Nat.ne_of_gt (Nat.mul_pos (units_pos h) five)) (by omega), ← hk, unit,
    Nat.mul_assoc, ten]
  exact nearest_units n (Nat.pow_pos (by decide))

/-- The exact decimal of a number is read as this number. -/
theorem place_exact (n : Nat) : (exact n).place = n := by
  by_cases h : n = 0
  · subst h
    exact place_of_digits_eq_zero (Nat.mul_eq_zero.2 (.inl (by decide)))
  · exact place_fives h (show Double.unitPlaces = 1073 + 1 from rfl) (by decide)
      (by unfold Double.scale; exact Eq.refl _)

/-- A decimal is only offered for a number if it is read as this number. -/
theorem place_of_neighbour? {tie : Tie} {n : Nat} {e : Int} {d : Decimal}
    (h : neighbour? tie n e = some d) : d.place = n := by
  simp only [neighbour?, readsAs] at h
  split at h
  · next below above =>
    simp only [decide_eq_true_eq] at below above
    -- both neighbours read back: whichever of them the tie picks does
    split at h <;> simp only [Option.some.injEq] at h <;> subst h
    · exact below
    · exact above
    · exact above
    · split
      · exact below
      · exact above
  · next below _ =>
    simp only [decide_eq_true_eq, Option.some.injEq] at below h
    exact h ▸ below
  · next _ above =>
    simp only [decide_eq_true_eq, Option.some.injEq] at above h
    exact h ▸ above
  · cases h

/-- So the shortest one that is found is read as the number, too. -/
theorem place_search (tie : Tie) (n steps : Nat) (e : Int) : (search tie n steps e).place = n := by
  induction steps generalizing e with
  | zero => exact place_exact n
  | succ steps ih =>
    unfold search
    cases h : neighbour? tie n e with
    | none => exact ih (e - 1)
    | some d => exact place_of_neighbour? h

/-- The shortest decimal reads back. -/
theorem place_shortest (tie : Tie) (n : Nat) : (shortest tie n).place = n := by
  unfold shortest
  split
  · next h => subst h; rfl
  · exact place_search tie n 18 _

/-! ### The text gives the decimal -/

/-- A decimal that is written out is read as a decimal at the same place. -/
theorem unsigned?_plain {d : Decimal} (h : d.place < magnitudeCount) :
    ∃ read, unsigned? d.plain = some read ∧ read.place = d.place := by
  obtain ⟨digits, exponent⟩ := d
  cases exponent with
  | ofNat e =>
    -- No point: the digits and their trailing zeros are one run.
    by_cases zero : digits = 0
    · exact ⟨⟨0, 0⟩, by simp [plain, zero]; decide, by simp [place, zero]⟩
    · have all : ∀ c ∈ digitText digits ++ List.replicate e '0', c.isDigit = true := by
        intro c hc
        rcases List.mem_append.1 hc with hc | hc
        · exact isDigit_of_mem_digitText hc
        · rw [List.eq_of_mem_replicate hc]; decide
      have leading := @leadingDigits_append _ [] all rfl
      have after := @afterDigits_append _ [] all rfl
      rw [List.append_nil] at leading after
      refine ⟨⟨digits * Nat.pow 10 e, 0⟩, ?_, ?_⟩
      · simp [unsigned?, plain, zero, leading, after, fraction, exponent?, digitText_ne_nil,
          readDigits_append_zeros]
      · -- an exponent that large would put the number past the last double
        have fits : ¬400 < e := by
          intro large
          simp [place, zero, large] at h
        have nonzero : digits * Nat.pow 10 e ≠ 0 :=
          Nat.mul_ne_zero zero (Nat.ne_of_gt (Nat.pow_pos (by decide)))
        show (if digits * Nat.pow 10 e = 0 then 0 else if 400 < 0 then magnitudeCount
          else nearest (digits * Nat.pow 10 e * Nat.pow 10 0 * Double.scale) 1) =
          if digits = 0 then 0 else if 400 < e then magnitudeCount
            else nearest (digits * Nat.pow 10 e * Double.scale) 1
        rw [if_neg nonzero, if_neg zero, if_neg fits, if_neg (by decide)]
        exact congrArg (nearest · 1) (congrArg (· * Double.scale) (Nat.mul_one _))
  | negSucc e =>
    -- A point: the padded digits are cut into the part before it and the `e + 1` places after.
    have long := le_length_padded (e + 2) digits
    generalize point : (padded (e + 2) digits).length - (e + 1) = p at *
    have first : ∀ c ∈ (padded (e + 2) digits).take p, c.isDigit = true :=
      fun c hc => isDigit_of_mem_padded (List.mem_of_mem_take hc)
    have second : ∀ c ∈ (padded (e + 2) digits).drop p, c.isDigit = true :=
      fun c hc => isDigit_of_mem_padded (List.mem_of_mem_drop hc)
    have leading := @leadingDigits_append _ ('.' :: (padded (e + 2) digits).drop p) first rfl
    have after := @afterDigits_append _ ('.' :: (padded (e + 2) digits).drop p) first rfl
    have leadingPlaces := @leadingDigits_append _ [] second rfl
    have afterPlaces := @afterDigits_append _ [] second rfl
    rw [List.append_nil] at leadingPlaces afterPlaces
    have places : ((padded (e + 2) digits).drop p).length = e + 1 := by
      rw [List.length_drop]; omega
    refine ⟨⟨digits, .negSucc e⟩, ?_, rfl⟩
    -- the reader refuses a lone point, which an empty part on each side would be
    have notBoth :
        ¬((padded (e + 2) digits).take p = [] ∧ (padded (e + 2) digits).drop p = []) := by
      rintro ⟨-, none⟩
      rw [none] at places
      simp at places
    simp only [unsigned?, plain, point, leading, after, fraction, leadingPlaces, afterPlaces,
      if_neg notBoth, exponent?, Option.map_some, List.take_append_drop, readDigits_padded, places]
    rfl

/-- A text that is read without a sign has none. -/
theorem ofText?_of_unsigned? {text : List Char} {d : Decimal} (h : unsigned? text = some d) :
    ofText? text = some (false, d) := by
  cases text with
  | nil => simp [unsigned?, leadingDigits, afterDigits, fraction] at h
  | cons c rest =>
    by_cases plus : c = '+'
    · simp [unsigned?, leadingDigits, afterDigits, fraction, plus] at h
    · by_cases minus : c = '-'
      · simp [unsigned?, leadingDigits, afterDigits, fraction, minus] at h
      · simp [ofText?, plus, minus, h]

end Decimal

/-- A number in query text is read as the number that was written. -/
theorem Double.ofText?_text (d : Double) : Double.ofText? d.text = some d := by
  obtain ⟨negative, magnitude⟩ := d
  have back := Decimal.place_shortest .up magnitude.val
  obtain ⟨read, reads, place⟩ := Decimal.unsigned?_plain (back ▸ magnitude.isLt)
  have found : Double.ofPlace? negative read.place = some ⟨negative, magnitude⟩ := by
    rw [place, back]
    simp [Double.ofPlace?]
  cases negative with
  | false =>
    have := Decimal.ofText?_of_unsigned? reads
    simpa [Double.ofText?, Double.text, Double.signText, this] using found
  | true =>
    simpa [Double.ofText?, Double.text, Double.signText, Decimal.ofText?, reads] using found

end FilterLang
