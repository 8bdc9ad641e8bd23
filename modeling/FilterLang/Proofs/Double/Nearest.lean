import Mathlib.Tactic.Ring
import FilterLang.Double.ReadBack

namespace FilterLang

/-!
# Double — rounding what is close to a magnitude

* `exists_grid` — a magnitude is a number of steps of a power of two, and these are what `nearest`
  counts.
* `roundedQuotient_eq` — less than half a step away from a whole number of steps, rounding gives this
  number.
* `nearest_of_close` — less than one part in `2 * 10 ^ 16` away from a magnitude, no other is nearer.
-/

/-- A quotient that lies less than a half away from a whole number is rounded to it. -/
theorem roundedQuotient_eq {num den q : Nat} (lower : 2 * (q * den) < 2 * num + den)
    (upper : 2 * num < 2 * (q * den) + den) : roundedQuotient num den = q := by
  have parts := Nat.div_add_mod' num den
  have rest := Nat.mod_lt num (show 0 < den by omega)
  -- the quotient is cut off at `q`, or just below it
  have most : num / den ≤ q := by
    by_contra more
    have := Nat.mul_le_mul_right den (show q + 1 ≤ num / den by omega)
    rw [Nat.add_mul] at this
    omega
  have least : q ≤ num / den + 1 := by
    by_contra fewer
    have := Nat.mul_le_mul_right den (show num / den + 2 ≤ q by omega)
    rw [Nat.add_mul] at this
    omega
  simp only [roundedQuotient]
  rcases show q = num / den ∨ q = num / den + 1 by omega with same | next
  · rw [same] at lower upper
    rw [if_pos (.inl (by omega)), same]
  · rw [next, Nat.add_mul] at lower upper
    rw [if_neg (by omega), next]

/-! ### Grids of binary steps -/

/-- A magnitude as a number of steps of `2 ^ s` units. From the second power of two on, the number
has 53 binary digits. -/
theorem exists_grid (n : Nat) :
    ∃ s q, units n = q * Nat.pow 2 s ∧ n = s * fractionCount + q ∧ q < 2 * fractionCount ∧
      (s = 0 ∨ fractionCount ≤ q) := by
  by_cases small : n < fractionCount
  · exact ⟨0, n, by simp [units, small], by simp, by omega, .inl rfl⟩
  · have rest := Nat.mod_lt n (show 0 < fractionCount by decide)
    have parts := Nat.div_add_mod n fractionCount
    have first : 1 ≤ n / fractionCount := (Nat.le_div_iff_mul_le (by decide)).2 (by omega)
    refine ⟨n / fractionCount - 1, fractionCount + n % fractionCount, ?_, ?_, by omega, .inr (by omega)⟩
    · simp only [units, small, if_false]
    · simp only [fractionCount] at *
      omega

/-- Steps of a grid make up a magnitude. -/
theorem units_grid {s q : Nat} (lower : fractionCount ≤ q) (upper : q ≤ 2 * fractionCount) :
    units (s * fractionCount + q) = q * Nat.pow 2 s := by
  have large : ¬s * fractionCount + q < fractionCount := by omega
  by_cases next : q = 2 * fractionCount
  · -- this is the first step of the next grid
    have place : s * fractionCount + q = (s + 2) * fractionCount := by rw [next, Nat.add_mul]
    have rest : (s + 2) * fractionCount % fractionCount = 0 := Nat.mul_mod_left _ _
    have whole : (s + 2) * fractionCount / fractionCount = s + 2 := Nat.mul_div_cancel _ (by decide)
    rw [units, if_neg large, place, rest, whole, next, Nat.add_zero, Nat.mul_comm 2, Nat.mul_assoc]
    exact congrArg (fractionCount * ·) (Nat.mul_comm _ _)
  · obtain ⟨f, rfl⟩ := Nat.exists_eq_add_of_le lower
    have inside : f < fractionCount := by omega
    have place : s * fractionCount + (fractionCount + f) = f + (s + 1) * fractionCount := by
      rw [Nat.add_mul]
      omega
    have rest : (f + (s + 1) * fractionCount) % fractionCount = f := by
      rw [Nat.add_mul_mod_self_right, Nat.mod_eq_of_lt inside]
    have whole : (f + (s + 1) * fractionCount) / fractionCount = s + 1 := by
      rw [Nat.add_mul_div_right _ _ (by decide), Nat.div_eq_of_lt inside, Nat.zero_add]
    rw [units, if_neg large, place, rest, whole, Nat.add_sub_cancel]

/-- The place of the first bit of a number that takes all bits of a fraction. -/
theorem log2_eq_of_steps {m s : Nat} (lower : fractionCount * Nat.pow 2 s ≤ m)
    (upper : m < 2 * fractionCount * Nat.pow 2 s) : m.log2 = 52 + s := by
  have pos : 0 < Nat.pow 2 s := Nat.pow_pos (by decide)
  have first : Nat.pow 2 (52 + s) = fractionCount * Nat.pow 2 s := Nat.pow_add 2 52 s
  have second : Nat.pow 2 (52 + s + 1) = 2 * fractionCount * Nat.pow 2 s := by
    rw [show 52 + s + 1 = 53 + s by omega]
    exact Nat.pow_add 2 53 s
  have zero : m ≠ 0 := Nat.ne_of_gt (Nat.lt_of_lt_of_le (Nat.mul_pos (by decide) pos) lower)
  exact (Nat.log2_eq_iff zero).2 ⟨Nat.le_trans (Nat.le_of_eq first) lower,
    Nat.lt_of_lt_of_eq upper second.symm⟩

/-- Below this bound, the steps between doubles are single units. -/
theorem log2_sub_eq_zero {m : Nat} (h : m < 2 * fractionCount) : m.log2 - 52 = 0 := by
  by_cases zero : m = 0
  · simp [zero]
  · have := (Nat.log2_lt zero).2 (show m < 2 ^ 53 from h)
    omega

/-- The place of a ratio between two powers of two. -/
theorem nearest_of_steps {num den s : Nat} (hd : 0 < den)
    (lower : fractionCount * (den * Nat.pow 2 s) ≤ num)
    (upper : num < 2 * fractionCount * (den * Nat.pow 2 s)) :
    nearest num den = s * fractionCount + roundedQuotient num (den * Nat.pow 2 s) := by
  rw [Nat.mul_comm den, ← Nat.mul_assoc] at lower upper
  have log := log2_eq_of_steps ((Nat.le_div_iff_mul_le hd).2 lower) ((Nat.div_lt_iff_lt_mul hd).2 upper)
  simp only [nearest, log, Nat.add_sub_cancel_left]

/-- Among the numbers with the smallest steps, the nearest one is the rounded quotient. -/
theorem nearest_of_small {num den : Nat} (hd : 0 < den) (upper : num < 2 * fractionCount * den) :
    nearest num den = roundedQuotient num den := by
  have log := log2_sub_eq_zero ((Nat.div_lt_iff_lt_mul hd).2 upper)
  simp only [nearest, log]
  simp

/-- What is less than one part in `2 * 10 ^ 16` away from a magnitude is rounded to it. -/
theorem nearest_of_close {n num den : Nat} (hd : 0 < den)
    (lower : 20000000000000000 * (units n * den) ≤ 20000000000000000 * num + units n * den)
    (upper : 20000000000000000 * num ≤ 20000000000000000 * (units n * den) + units n * den) :
    nearest num den = n := by
  obtain ⟨s, q, steps, rfl, most, least⟩ := exists_grid n
  have whole : units (s * fractionCount + q) * den = q * (den * Nat.pow 2 s) := by
    rw [steps, Nat.mul_assoc, Nat.mul_comm den]
  rw [whole] at lower upper
  have pos : 0 < den * Nat.pow 2 s := Nat.mul_pos hd (Nat.pow_pos (by decide))
  -- so the ratio does not reach the next power of two, and rounding gives `q` steps
  have short := Nat.mul_le_mul_right (den * Nat.pow 2 s) (show q + 1 ≤ 2 * fractionCount by omega)
  rw [Nat.add_mul, Nat.one_mul] at short
  have below : num < 2 * fractionCount * (den * Nat.pow 2 s) := by
    simp only [fractionCount] at *
    omega
  have rounded : roundedQuotient num (den * Nat.pow 2 s) = q := by
    simp only [fractionCount] at *
    exact roundedQuotient_eq (by omega) (by omega)
  obtain rfl | ⟨t, rfl⟩ : s = 0 ∨ ∃ t, s = t + 1 := by cases s <;> simp
  · have single : den * Nat.pow 2 0 = den := Nat.mul_one den
    rw [single] at below rounded
    rw [nearest_of_small hd below, rounded]
    omega
  · have long : fractionCount ≤ q := least.resolve_left (by omega)
    by_cases above : fractionCount * (den * Nat.pow 2 (t + 1)) ≤ num
    · rw [nearest_of_steps hd above below, rounded]
    · -- the ratio lies just below a power of two, where steps are half as long
      have first : q = fractionCount := by
        by_contra later
        have := Nat.mul_le_mul_right (den * Nat.pow 2 (t + 1)) (show fractionCount + 1 ≤ q by omega)
        rw [Nat.add_mul] at this
        simp only [fractionCount] at *
        omega
      have half : den * Nat.pow 2 (t + 1) = 2 * (den * Nat.pow 2 t) := by
        rw [show Nat.pow 2 (t + 1) = Nat.pow 2 t * 2 from rfl]
        ring
      rw [half] at above
      rw [first, half] at lower upper
      have double : roundedQuotient num (den * Nat.pow 2 t) = 2 * fractionCount := by
        simp only [fractionCount] at *
        exact roundedQuotient_eq (by omega) (by omega)
      have inside : fractionCount * (den * Nat.pow 2 t) ≤ num ∧
          num < 2 * fractionCount * (den * Nat.pow 2 t) := by
        simp only [fractionCount] at *
        omega
      rw [nearest_of_steps hd inside.1 inside.2, double, first, Nat.add_mul]
      omega

end FilterLang
