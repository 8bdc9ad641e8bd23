import FilterLang.Json.Token
import FilterLang.Proofs.Double.Whole

namespace FilterLang

/-!
# Double — numbers that are computed without loss

* `units_nearest_of_short` — 53 binary digits and zeros after them are rounded to themselves.
* `Double.size_ofNat`, `Double.size_powerOfTen` — so whole numbers below `2 ^ 53` and powers of ten up
  to the 22nd are doubles.
* `Json.scaled_of_short` — their product or quotient is rounded once: it is the double nearest to the
  decimal.
-/

/-- A number with at most 53 bits before its zeros is not rounded. -/
theorem units_nearest_of_short {q t : Nat} (short : q < 2 * fractionCount) :
    units (nearest (q * Nat.pow 2 t) 1) = q * Nat.pow 2 t := by
  by_cases large : fractionCount ≤ q * Nat.pow 2 t
  · obtain ⟨s, steps, lower, -⟩ := exists_steps_nearest large
    -- the steps are not coarser than the zeros, or the number would not reach them
    have fine : s ≤ t := by
      by_contra coarse
      have double : Nat.pow 2 t * 2 ≤ Nat.pow 2 s :=
        Nat.pow_le_pow_right (n := 2) (by decide) (show t + 1 ≤ s by omega)
      have most : q * Nat.pow 2 t < 2 * fractionCount * Nat.pow 2 t :=
        Nat.mul_lt_mul_of_pos_right short (Nat.pow_pos (by decide))
      have least := Nat.mul_le_mul_left fractionCount double
      simp only [fractionCount] at *
      omega
    have step : Nat.pow 2 s ∣ q * Nat.pow 2 t := Nat.dvd_mul_left_of_dvd (Nat.pow_dvd_pow 2 fine) q
    have pos : 0 < Nat.pow 2 s := Nat.pow_pos (by decide)
    rw [steps, roundedQuotient_mul_of_dvd pos step]
  · exact units_nearest_of_lt (Nat.not_le.1 large)

/-- A ratio is rounded in the same way however it is written. -/
theorem nearest_mul_right (num den : Nat) {k : Nat} (pos : 0 < k) :
    nearest (num * k) (den * k) = nearest num den := by
  have quotient (a b : Nat) : roundedQuotient (a * k) (b * k) = roundedQuotient a b := by
    have double : 2 * (a % b * k) = 2 * (a % b) * k := (Nat.mul_assoc _ _ _).symm
    simp only [roundedQuotient, Nat.mul_div_mul_right a b pos, Nat.mul_mod_mul_right, double,
      Nat.mul_lt_mul_right pos, Nat.mul_left_inj pos.ne']
  simp only [nearest, Nat.mul_div_mul_right num den pos, Nat.mul_right_comm den k, quotient]

theorem nearest_zero (den : Nat) : nearest 0 den = 0 := by
  have rounded (d : Nat) : roundedQuotient 0 d = 0 := by
    rcases Nat.eq_zero_or_pos d with rfl | pos <;> simp [roundedQuotient]
    omega
  simp [nearest, rounded]

/-- A magnitude far below the last one has a place. -/
theorem lt_magnitudeCount {n places : Nat} (few : places ≤ 2000) (h : units n < Nat.pow 2 places) :
    n < magnitudeCount := by
  obtain ⟨s, q, steps, place, most, least⟩ := exists_grid n
  by_contra beyond
  -- past the last double the grid is coarser than `2^places`, and one step of it is too large
  have long : places ≤ s := by
    simp only [magnitudeCount, fractionCount] at *
    omega
  have some : 0 < q := by
    simp only [magnitudeCount, fractionCount] at *
    omega
  have large : Nat.pow 2 places ≤ units n := by
    rw [steps]
    exact Nat.le_trans (Nat.pow_le_pow_right (by decide) long) (Nat.le_mul_of_pos_left _ some)
  exact absurd h (Nat.not_lt.2 large)

namespace Double

/-- A whole number with 53 binary digits and zeros after them is a double. -/
theorem size_ofNat {q t : Nat} (short : q < 2 * fractionCount) (small : t ≤ 100) :
    (ofNat (q * Nat.pow 2 t)).size = q * Nat.pow 2 t * scale := by
  have whole : q * Nat.pow 2 t * scale = q * Nat.pow 2 (t + unitPlaces) := by
    unfold scale
    generalize unitPlaces = places
    rw [Nat.mul_assoc]
    exact congrArg (q * ·) (Nat.pow_add 2 t places).symm
  have exact' := @units_nearest_of_short q (t + unitPlaces) short
  rw [← whole] at exact'
  -- the number ends far below `2^2000` units, so the reading does not overflow
  have place : nearest (q * Nat.pow 2 t * scale) 1 < magnitudeCount := by
    have few : 53 + (t + unitPlaces) ≤ 2000 := by
      simp only [unitPlaces]
      omega
    apply lt_magnitudeCount few
    rw [exact', whole]
    exact Nat.lt_of_lt_of_eq (Nat.mul_lt_mul_of_pos_right short (Nat.pow_pos (by decide)))
      (Nat.pow_add 2 53 _).symm
  simp only [ofNat, ofRatio?, ofPlace?, place, dif_pos, Option.getD_some, size]
  exact exact'

/-- Powers of ten up to the 22nd are doubles. -/
theorem size_powerOfTen {e : Nat} (h : e ≤ 22) : (powerOfTen e).size = Nat.pow 10 e * scale := by
  have split : Nat.pow 10 e = Nat.pow 5 e * Nat.pow 2 e := Nat.mul_pow 5 2 e
  have short : Nat.pow 5 e < 2 * fractionCount :=
    Nat.lt_of_le_of_lt (Nat.pow_le_pow_right (by decide) h) (by decide)
  rw [powerOfTen, split]
  exact size_ofNat short (by omega)

end Double

namespace Json

variable {digits : Nat}

/-- Short digits are a double of just their size. -/
theorem size_ofNat_digits (short : digits < 2 * fractionCount) :
    (Double.ofNat digits).size = digits * Double.scale := by
  have whole := @Double.size_ofNat digits 0 short (by decide)
  rwa [show digits * Nat.pow 2 0 = digits from Nat.mul_one digits] at whole

/-- The product of a short number and a power of ten is rounded once. -/
theorem times?_powerOfTen {e : Nat} (short : digits < 2 * fractionCount) (near : e ≤ 22) :
    (Double.ofNat digits).times? (.powerOfTen e) =
      Double.ofPlace? false (Decimal.place ⟨digits, .ofNat e⟩) := by
  have pos := Nat.mul_pos scale_pos scale_pos
  have ratio : digits * Double.scale * (Nat.pow 10 e * Double.scale) * Double.scale =
      digits * Nat.pow 10 e * Double.scale * (Double.scale * Double.scale) := by
    ring
  have once := nearest_mul_right (digits * Nat.pow 10 e * Double.scale) 1 pos
  rw [Nat.one_mul] at once
  rw [Double.times?, Double.ofRatio?, size_ofNat_digits short, Double.size_powerOfTen near, ratio,
    once, Decimal.place_ofNat (by omega)]

/-- The quotient of a short number by a power of ten is rounded once. -/
theorem over?_powerOfTen {e : Nat} (short : digits < 2 * fractionCount) (near : e + 1 ≤ 22) :
    (Double.ofNat digits).over? (.powerOfTen (e + 1)) =
      Double.ofPlace? false (Decimal.place ⟨digits, .negSucc e⟩) := by
  have place : Decimal.place ⟨digits, .negSucc e⟩ =
      nearest (digits * Double.scale) (Nat.pow 10 (e + 1)) := by
    by_cases zero : digits = 0
    · rw [Decimal.place_of_digits_eq_zero zero, zero, Nat.zero_mul, nearest_zero]
    · exact Decimal.place_negSucc zero (by omega)
  rw [Double.over?, Double.ofRatio?, size_ofNat_digits short, Double.size_powerOfTen near, place,
    nearest_mul_right _ _ scale_pos]

/-- A short decimal is computed as the double that is nearest to it. -/
theorem scaled_of_short {e : Int} (short : digits < 2 * fractionCount) (near : e.natAbs ≤ 22)
    (fits : Decimal.place ⟨digits, e⟩ < magnitudeCount) :
    scaled (.ofNat digits) e 4 = .ok ⟨false, Decimal.place ⟨digits, e⟩, fits⟩ := by
  show (if 308 < e.natAbs then _ else if 0 ≤ e then _ else _) = _
  rw [if_neg (by omega)]
  -- one multiplication or one division by an exact power of ten, so rounded only once
  cases e with
  | ofNat e =>
    have product := @times?_powerOfTen digits e short near
    simp only [Double.ofPlace?, fits, dif_pos] at product
    rw [if_pos (show 0 ≤ Int.ofNat e from Int.natCast_nonneg e),
      show (Int.ofNat e).natAbs = e from rfl, product]
  | negSucc e =>
    have quotient := @over?_powerOfTen digits e short near
    simp only [Double.ofPlace?, fits, dif_pos] at quotient
    rw [if_neg (by omega), show (Int.negSucc e).natAbs = e + 1 from rfl, quotient]
    rfl

end Json

end FilterLang
