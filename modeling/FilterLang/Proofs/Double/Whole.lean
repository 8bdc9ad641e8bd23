import FilterLang.Proofs.Double.Shortest

namespace FilterLang

/-!
# Double — whole numbers

* `dvd_units_nearest` — a whole number is rounded to a whole number.
* `units_nearest_le` — rounding does not double a number.
* `Double.whole_of_shortest` — a double that is written as a whole number is one.
* `Double.ofNat_whole` — a whole double is the double of its number.
-/

/-- Rounding moves a quotient by less than one. -/
theorem roundedQuotient_bounds (num den : Nat) :
    num / den ≤ roundedQuotient num den ∧ roundedQuotient num den ≤ num / den + 1 := by
  simp only [roundedQuotient]
  split <;> omega

/-- From `2 ^ 52` units on, a number of units is rounded to steps of a power of two. -/
theorem exists_steps_nearest {m : Nat} (large : fractionCount ≤ m) :
    ∃ s, units (nearest m 1) = roundedQuotient m (Nat.pow 2 s) * Nat.pow 2 s ∧
      fractionCount * Nat.pow 2 s ≤ m ∧ m < 2 * fractionCount * Nat.pow 2 s := by
  have zero : m ≠ 0 := by simp only [fractionCount] at large; omega
  have least : 52 ≤ m.log2 := (Nat.le_log2 zero).2 large
  obtain ⟨s, log⟩ := Nat.exists_eq_add_of_le least
  have lower := Nat.log2_self_le zero
  have upper := @Nat.lt_log2_self m
  rw [log] at lower upper
  have first : fractionCount * Nat.pow 2 s ≤ m :=
    Nat.le_trans (Nat.le_of_eq (Nat.pow_add 2 52 s).symm) lower
  have second : m < 2 * fractionCount * Nat.pow 2 s := by
    apply Nat.lt_of_lt_of_eq upper
    rw [show 52 + s + 1 = 53 + s by omega]
    exact Nat.pow_add 2 53 s
  -- steps of `2 ^ s` units are counted, and `nearest` counts the same
  have pos : 0 < Nat.pow 2 s := Nat.pow_pos (by decide)
  have one : 1 * Nat.pow 2 s = Nat.pow 2 s := Nat.one_mul _
  refine ⟨s, ?_, first, second⟩
  obtain ⟨below, above⟩ := roundedQuotient_bounds m (Nat.pow 2 s)
  have many := (Nat.le_div_iff_mul_le pos).2 first
  have few := (Nat.div_lt_iff_lt_mul pos).2 second
  rw [nearest_of_steps Nat.one_pos (s := s) (by rwa [one]) (by rwa [one]), one,
    units_grid (by omega) (by omega)]

/-- Below `2 ^ 52` units nothing is rounded. -/
theorem units_nearest_of_lt {m : Nat} (h : m < fractionCount) : units (nearest m 1) = m := by
  have small : units m = m := if_pos h
  have same := @nearest_units m 1 Nat.one_pos
  rw [small, Nat.mul_one] at same
  rw [same, small]

/-- A whole quotient is not rounded. -/
theorem roundedQuotient_mul_of_dvd {num den : Nat} (pos : 0 < den) (h : den ∣ num) :
    roundedQuotient num den * den = num := by
  obtain ⟨q, rfl⟩ := h
  rw [Nat.mul_comm den, roundedQuotient_mul q pos]

/-- Rounding does not double a number. -/
theorem units_nearest_le (m : Nat) : units (nearest m 1) ≤ 2 * m := by
  by_cases large : fractionCount ≤ m
  · obtain ⟨s, steps, lower, -⟩ := exists_steps_nearest large
    have most := (roundedQuotient_bounds m (Nat.pow 2 s)).2
    have step : Nat.pow 2 s ≤ m := Nat.le_trans (Nat.le_mul_of_pos_left _ (by decide)) lower
    calc units (nearest m 1) = roundedQuotient m (Nat.pow 2 s) * Nat.pow 2 s := steps
      _ ≤ (m / Nat.pow 2 s + 1) * Nat.pow 2 s := Nat.mul_le_mul_right _ most
      _ = m / Nat.pow 2 s * Nat.pow 2 s + Nat.pow 2 s := Nat.succ_mul _ _
      _ ≤ m + m := Nat.add_le_add (Nat.div_mul_le_self _ _) step
      _ = 2 * m := (Nat.two_mul m).symm
  · rw [units_nearest_of_lt (Nat.not_le.1 large)]
    omega

/-- A whole number of some power of two is rounded to a whole number of it. -/
theorem pow_dvd_units_nearest {places : Nat} (h : 52 ≤ places) (n : Nat) :
    Nat.pow 2 places ∣ units (nearest (n * Nat.pow 2 places) 1) := by
  by_cases zero : n = 0
  · subst zero
    rw [Nat.zero_mul]
    exact Nat.dvd_zero _
  · have large : fractionCount ≤ n * Nat.pow 2 places :=
      calc fractionCount = Nat.pow 2 52 := rfl
        _ ≤ Nat.pow 2 places := Nat.pow_le_pow_right (by decide) h
        _ ≤ n * Nat.pow 2 places := Nat.le_mul_of_pos_left _ (Nat.pos_of_ne_zero zero)
    obtain ⟨s, steps, -, -⟩ := exists_steps_nearest large
    rw [steps]
    -- coarse steps are whole numbers themselves
    rcases Nat.le_total places s with short | long
    · exact Nat.dvd_mul_left_of_dvd (Nat.pow_dvd_pow 2 short) _
    · -- the steps divide the number, so that nothing is rounded
      have step : Nat.pow 2 s ∣ n * Nat.pow 2 places :=
        Nat.dvd_mul_left_of_dvd (Nat.pow_dvd_pow 2 long) n
      have pos : 0 < Nat.pow 2 s := Nat.pow_pos (by decide)
      rw [roundedQuotient_mul_of_dvd pos step]
      exact Nat.dvd_mul_left _ _

/-- A whole number is rounded to a whole number. -/
theorem dvd_units_nearest (n : Nat) : Double.scale ∣ units (nearest (n * Double.scale) 1) := by
  unfold Double.scale
  exact pow_dvd_units_nearest (by decide) n

namespace Decimal

/-- A decimal without digits behind the point is rounded as a whole number. -/
theorem place_ofNat {digits e : Nat} (h : e ≤ 400) :
    place ⟨digits, .ofNat e⟩ = nearest (digits * Nat.pow 10 e * Double.scale) 1 := by
  by_cases zero : digits = 0
  · rw [place_of_digits_eq_zero zero, zero, Nat.zero_mul, Nat.zero_mul]
    decide
  · simp only [place, zero, if_false, if_neg (Nat.not_lt.2 h)]

/-- A whole decimal below `10 ^ 16` is nearest to a whole number below `2 * 10 ^ 16`. -/
theorem whole_of_place {digits e : Nat} (short : e + width digits ≤ 16) :
    Double.scale ∣ units (place ⟨digits, .ofNat e⟩) ∧
      units (place ⟨digits, .ofNat e⟩) / Double.scale < 20000000000000000 := by
  rw [place_ofNat (by omega)]
  refine ⟨dvd_units_nearest _, ?_⟩
  -- at most sixteen digits in all, so below `10^16`, and rounding at most doubles it
  have number : digits * Nat.pow 10 e < 10000000000000000 :=
    calc digits * Nat.pow 10 e < Nat.pow 10 (width digits) * Nat.pow 10 e :=
          Nat.mul_lt_mul_of_pos_right (lt_pow_width digits) (Nat.pow_pos (by decide))
      _ = Nat.pow 10 (width digits + e) := (Nat.pow_add 10 _ _).symm
      _ ≤ Nat.pow 10 16 := Nat.pow_le_pow_right (by decide) (by omega)
  generalize digits * Nat.pow 10 e = n at *
  refine (Nat.div_lt_iff_lt_mul scale_pos).2 (Nat.lt_of_le_of_lt (units_nearest_le _) ?_)
  rw [← Nat.mul_assoc]
  exact Nat.mul_lt_mul_of_pos_right (by omega) scale_pos

end Decimal

namespace Double

theorem isZero_of_size {d : Double} (h : d.size = 0) : d.isZero = true := by
  apply decide_eq_true
  by_contra some
  exact (units_pos some).ne' h

/-- The whole number that a double is. -/
theorem of_whole? {d : Double} {n : Int} (h : d.whole? = some n) :
    scale ∣ d.size ∧ n.natAbs = d.size / scale ∧
      (decide (n < 0) = d.negative ∨ d.isZero = true) := by
  unfold whole? at h
  split at h
  · next whole =>
    have parts := Nat.div_mul_cancel (Nat.dvd_of_mod_eq_zero whole)
    have zero : d.size / scale = 0 → d.isZero = true := by
      intro none
      rw [none, Nat.zero_mul] at parts
      exact isZero_of_size parts.symm
    refine ⟨Nat.dvd_of_mod_eq_zero whole, ?_⟩
    generalize d.size / scale = size at *
    cases sign : d.negative with
    -- a negative zero is the only double whose sign the number loses
    | true =>
      obtain rfl : -(size : Int) = n := by simpa [sign] using h
      refine ⟨by omega, ?_⟩
      by_cases none : size = 0
      · exact .inr (zero none)
      · exact .inl (decide_eq_true (by omega))
    | false =>
      obtain rfl : (size : Int) = n := by simpa [sign] using h
      exact ⟨by omega, .inl (decide_eq_false (by omega))⟩
  · cases h

/-- A size in whole steps makes a whole number. -/
theorem whole?_of_dvd {d : Double} (h : scale ∣ d.size) : ∃ n, d.whole? = some n :=
  ⟨_, if_pos (Nat.mod_eq_zero_of_dvd h)⟩

/-- A double with another magnitude is another number. -/
theorem agrees_iff {negative : Bool} {d : Double} {magnitude : Fin magnitudeCount} :
    agrees ⟨negative, magnitude⟩ d = true ↔
      magnitude = d.magnitude ∧ (negative = d.negative ∨ d.isZero = true) := by
  obtain ⟨sign, place⟩ := d
  simp only [agrees, isZero, Bool.or_eq_true, Bool.and_eq_true, decide_eq_true_eq, mk.injEq]
  constructor
  · rintro (⟨rfl, rfl⟩ | ⟨first, second⟩)
    · exact ⟨rfl, .inl rfl⟩
    · exact ⟨Fin.ext (first.trans second.symm), .inr second⟩
  · rintro ⟨rfl, rfl | zero⟩
    · exact .inl ⟨rfl, rfl⟩
    · exact .inr ⟨zero, zero⟩

/-- A double whose shortest decimal is a whole number below `10 ^ 16` is whole. -/
theorem whole_of_shortest {d : Double} {tie : Tie} {digits e : Nat}
    (h : Decimal.shortest tie d.magnitude = ⟨digits, .ofNat e⟩)
    (short : e + Decimal.width digits ≤ 16) :
    scale ∣ d.size ∧ d.size / scale < 20000000000000000 := by
  have place := Decimal.place_shortest tie d.magnitude
  have whole := @Decimal.whole_of_place digits e short
  rwa [← h, place] at whole

/-- A whole double is the double of its number. -/
theorem ofNat_whole {d : Double} (h : scale ∣ d.size) :
    (ofNat (d.size / scale)).magnitude = d.magnitude := by
  have whole : d.size / scale * scale = units d.magnitude := Nat.div_mul_cancel h
  have place := @nearest_units d.magnitude.val 1 Nat.one_pos
  rw [Nat.mul_one] at place
  simp [ofNat, ofRatio?, whole, place, ofPlace?]

end Double

end FilterLang
