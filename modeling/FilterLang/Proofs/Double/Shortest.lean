import Mathlib.Tactic.FieldSimp
import Mathlib.Tactic.Linarith
import Mathlib.Tactic.NormNum
import Mathlib.Data.Rat.Cast.Order
import Mathlib.Algebra.Order.Field.Power
import FilterLang.Proofs.Text.Digits
import FilterLang.Proofs.Double.Nearest

namespace FilterLang

/-!
# Double — seventeen digits

The search for the shortest decimal of a magnitude ends on one of its grids: on the finest one, of
two decimals around a magnitude the closer one reads back. So no decimal that is written has more
than 17 digits, and none is taken from the digits of `Decimal.exact`.

* `valueAt` — the number that is the magnitude at a place.
* `Decimal.pow_le_valueAt`, `Decimal.valueAt_lt_pow` — the leading exponent of a magnitude.
* `Decimal.neighbour?_isSome` — from 17 digits on, a decimal next to a magnitude reads back.
* `Decimal.digits_shortest_le` — the shortest decimal has 17 digits at most.
-/

/-- The number that is the magnitude at place `n`. -/
def valueAt (n : Nat) : ℚ := units n / Double.scale

theorem scale_pos : 0 < Double.scale := by
  unfold Double.scale
  generalize Double.unitPlaces = places
  exact Nat.pow_pos (by decide)

/-- A value in units is a whole number. -/
theorem valueAt_mul_scale (n : Nat) : valueAt n * Double.scale = units n := by
  have : (Double.scale : ℚ) ≠ 0 := by exact_mod_cast scale_pos.ne'
  rw [valueAt, div_mul_cancel₀ _ this]

namespace Decimal

theorem ten_zpow_pos (e : Int) : (0 : ℚ) < (10 : ℚ) ^ e := zpow_pos (by norm_num) e

/-! ### A magnitude on a decimal grid -/

theorem onGrid_ofNat (n e : Nat) :
    onGrid n (.ofNat e) = (units n, Double.scale * Nat.pow 10 e) := rfl

theorem onGrid_negSucc (n e : Nat) :
    onGrid n (.negSucc e) = (units n * Nat.pow 10 (e + 1), Double.scale) := rfl

theorem onGrid_pos (n : Nat) (e : Int) : 0 < (onGrid n e).2 := by
  cases e with
  | ofNat e =>
    rw [onGrid_ofNat]
    dsimp only
    exact Nat.mul_pos scale_pos (Nat.pow_pos (by decide))
  | negSucc e =>
    rw [onGrid_negSucc]
    dsimp only
    exact scale_pos

theorem cast_ten_pow (e : Nat) : ((Nat.pow 10 e : Nat) : ℚ) = (10 : ℚ) ^ e := by
  exact_mod_cast rfl

/-- On the grid `10 ^ e`, a magnitude is its quotient by `10 ^ e`. -/
theorem onGrid_eq (n : Nat) (e : Int) :
    ((onGrid n e).1 : ℚ) * (10 : ℚ) ^ e = valueAt n * (onGrid n e).2 := by
  cases e with
  | ofNat e =>
    rw [onGrid_ofNat, Nat.cast_mul, cast_ten_pow, ← mul_assoc, valueAt_mul_scale]
    rfl
  | negSucc e =>
    rw [onGrid_negSucc, Nat.cast_mul, cast_ten_pow, zpow_negSucc, mul_assoc,
      mul_inv_cancel₀ (by positivity), mul_one, valueAt_mul_scale]

/-- A step of the grid that is not above the value is not above its quotient. -/
theorem mul_le_onGrid {n c : Nat} {e : Int} (h : (c : ℚ) * (10 : ℚ) ^ e ≤ valueAt n) :
    c * (onGrid n e).2 ≤ (onGrid n e).1 := by
  have ten := ten_zpow_pos e
  have den : (0 : ℚ) < (onGrid n e).2 := by exact_mod_cast onGrid_pos n e
  have same := onGrid_eq n e
  have : (c : ℚ) * (onGrid n e).2 ≤ (onGrid n e).1 := by
    refine le_of_mul_le_mul_right ?_ ten
    -- on both sides, a step of the grid is multiplied by its size
    calc (c : ℚ) * (onGrid n e).2 * (10 : ℚ) ^ e
        = c * (10 : ℚ) ^ e * (onGrid n e).2 := by ring
      _ ≤ valueAt n * (onGrid n e).2 := by gcongr
      _ = (onGrid n e).1 * (10 : ℚ) ^ e := same.symm
  exact_mod_cast this

/-- A step of the grid above the value is above its quotient. -/
theorem onGrid_lt_mul {n c : Nat} {e : Int} (h : valueAt n < (c : ℚ) * (10 : ℚ) ^ e) :
    (onGrid n e).1 < c * (onGrid n e).2 := by
  have ten := ten_zpow_pos e
  have den : (0 : ℚ) < (onGrid n e).2 := by exact_mod_cast onGrid_pos n e
  have same := onGrid_eq n e
  have : ((onGrid n e).1 : ℚ) < c * (onGrid n e).2 := by
    refine lt_of_mul_lt_mul_right ?_ ten.le
    calc ((onGrid n e).1 : ℚ) * (10 : ℚ) ^ e
        = valueAt n * (onGrid n e).2 := same
      _ < c * (10 : ℚ) ^ e * (onGrid n e).2 := by gcongr
      _ = c * (onGrid n e).2 * (10 : ℚ) ^ e := by ring
  exact_mod_cast this

/-! ### The leading exponent -/

/-- A number is below the power of ten with as many zeros as it has digits. -/
theorem lt_pow_width (m : Nat) : m < Nat.pow 10 (width m) := by
  have pos : 0 < (digitText m).length := List.length_pos_of_ne_nil (digitText_ne_nil m)
  exact (length_digitText_le_iff pos).1 (Nat.le_refl _)

/-- It is not below the power of ten before that one. -/
theorem pow_width_le {m : Nat} (h : m ≠ 0) : Nat.pow 10 (width m - 1) ≤ m := by
  by_cases single : width m - 1 = 0
  · rw [single]
    exact Nat.pos_of_ne_zero h
  · have := (length_digitText_le_iff (n := m) (Nat.pos_of_ne_zero single)).not.1
      (by unfold width at *; omega)
    exact Nat.not_lt.1 this

section

variable {n places : Nat}

/-- A power of ten that is not above one unit is not above a value, unless this is zero. -/
theorem pow_neg_le_valueAt (small : Double.scale ≤ Nat.pow 10 places) (h : n ≠ 0) :
    (10 : ℚ) ^ (-(places : Int)) ≤ valueAt n := by
  have one : (1 : ℚ) ≤ units n := by exact_mod_cast units_pos h
  have scale : (Double.scale : ℚ) ≤ (10 : ℚ) ^ places := by
    rw [← cast_ten_pow]
    exact Nat.cast_le.2 small
  have pos : (0 : ℚ) < Double.scale := Nat.cast_pos.2 scale_pos
  rw [valueAt, le_div_iff₀ pos, zpow_neg, zpow_natCast, inv_mul_le_iff₀ (by positivity)]
  calc (Double.scale : ℚ) ≤ (10 : ℚ) ^ places := scale
    _ ≤ (10 : ℚ) ^ places * units n := le_mul_of_one_le_right (by positivity) one

/-- A bound in units is a bound on the value. -/
theorem valueAt_lt_pow (large : units n < Nat.pow 10 places * Double.scale) :
    valueAt n < (10 : ℚ) ^ (places : Int) := by
  have pos : (0 : ℚ) < Double.scale := Nat.cast_pos.2 scale_pos
  have bound := (Nat.cast_lt (α := ℚ)).2 large
  rw [Nat.cast_mul, cast_ten_pow] at bound
  rw [valueAt, div_lt_iff₀ pos, zpow_natCast]
  exact bound

/-- The number of digits of a magnitude that is moved by some places and cut off. -/
theorem width_spec (small : Double.scale ≤ units n * Nat.pow 10 places) :
    (10 : ℚ) ^ ((width (units n * Nat.pow 10 places / Double.scale) : Int) - places - 1) ≤ valueAt n ∧
      valueAt n < (10 : ℚ) ^ ((width (units n * Nat.pow 10 places / Double.scale) : Int) - places) := by
  have pos : (0 : ℚ) < Double.scale := Nat.cast_pos.2 scale_pos
  have ten : (10 : ℚ) ≠ 0 := by norm_num
  have moved : (0 : ℚ) < (10 : ℚ) ^ places := by positivity
  have some : units n * Nat.pow 10 places / Double.scale ≠ 0 :=
    Nat.ne_of_gt (Nat.div_pos small scale_pos)
  have down := Nat.div_mul_le_self (units n * Nat.pow 10 places) Double.scale
  have up := (Nat.div_lt_iff_lt_mul scale_pos).1
    (Nat.lt_succ_self (units n * Nat.pow 10 places / Double.scale))
  -- what is cut off does not change the number of digits
  generalize units n * Nat.pow 10 places / Double.scale = cut at *
  have low := pow_width_le some
  have high := lt_pow_width cut
  have digits : 1 ≤ width cut := List.length_pos_of_ne_nil (digitText_ne_nil cut)
  generalize width cut = w at *
  have value : (units n : ℚ) * (10 : ℚ) ^ places = valueAt n * (10 : ℚ) ^ places * Double.scale := by
    rw [← valueAt_mul_scale]
    ring
  have lower : (10 : ℚ) ^ (w - 1) ≤ valueAt n * (10 : ℚ) ^ places := by
    refine le_of_mul_le_mul_right ?_ pos
    rw [← value, ← cast_ten_pow, ← cast_ten_pow]
    exact_mod_cast Nat.le_trans (Nat.mul_le_mul_right _ low) down
  have upper : valueAt n * (10 : ℚ) ^ places < (10 : ℚ) ^ w := by
    refine lt_of_mul_lt_mul_right ?_ pos.le
    rw [← value, ← cast_ten_pow, ← cast_ten_pow]
    exact_mod_cast Nat.lt_of_lt_of_le up (Nat.mul_le_mul_right _ high)
  constructor
  · refine le_of_mul_le_mul_right ?_ moved
    rw [← zpow_natCast, ← zpow_add₀ ten]
    rw [show (w : Int) - places - 1 + places = ((w - 1 : Nat) : Int) by omega]
    exact_mod_cast lower
  · refine lt_of_mul_lt_mul_right ?_ moved.le
    rw [← zpow_natCast (10 : ℚ) places, ← zpow_add₀ ten, Int.sub_add_cancel]
    exact_mod_cast upper

end

theorem scale_le : Double.scale ≤ Nat.pow 10 324 := by decide +kernel

/-- The largest magnitude lies below `2 ^ 1024`. -/
theorem units_lt {n : Nat} (h : n < magnitudeCount) : units n < Nat.pow 10 309 * Double.scale := by
  obtain ⟨s, q, steps, place, most, least⟩ := exists_grid n
  have exponent : s ≤ 2045 := by
    rcases least with rfl | long
    · exact Nat.zero_le _
    · simp only [magnitudeCount, fractionCount] at *
      omega
  have largest : 2 * fractionCount * Nat.pow 2 2045 ≤ Nat.pow 10 309 * Double.scale := by
    decide +kernel
  -- the exponent is hidden, so that no power of it is computed
  generalize 2045 = top at *
  calc units n = q * Nat.pow 2 s := steps
    _ ≤ q * Nat.pow 2 top := Nat.mul_le_mul_left _ (Nat.pow_le_pow_right (by decide) exponent)
    _ < 2 * fractionCount * Nat.pow 2 top :=
      Nat.mul_lt_mul_of_pos_right most (Nat.pow_pos (by decide))
    _ ≤ Nat.pow 10 309 * Double.scale := largest

/-- A magnitude lies below the power of ten of its leading exponent, and not below the one before. -/
theorem leadingExponent_spec {n : Nat} (h : n ≠ 0) :
    (10 : ℚ) ^ (leadingExponent n - 1) ≤ valueAt n ∧ valueAt n < (10 : ℚ) ^ leadingExponent n := by
  have scale : Double.scale ≤ Nat.pow 10 400 := by decide +kernel
  have small : Double.scale ≤ units n * Nat.pow 10 400 :=
    Nat.le_trans scale (Nat.le_mul_of_pos_left _ (units_pos h))
  rw [leadingExponent]
  simpa only [Nat.cast_ofNat] using width_spec small

/-- All doubles but zero have a leading exponent between these bounds. -/
theorem leadingExponent_bounds {n : Nat} (h : n ≠ 0) (hn : n < magnitudeCount) :
    -324 < leadingExponent n ∧ leadingExponent n ≤ 309 := by
  obtain ⟨lower, upper⟩ := leadingExponent_spec h
  have least := lt_of_le_of_lt (pow_neg_le_valueAt scale_le h) upper
  have most := lt_of_le_of_lt lower (valueAt_lt_pow (units_lt hn))
  rw [zpow_lt_zpow_iff_right₀ (by norm_num)] at least most
  omega

/-! ### Decimals next to a magnitude -/

/-- A decimal that is less than one part in `2 * 10 ^ 16` away from a magnitude reads back. -/
theorem place_of_close {n digits : Nat} {e : Int} (h : digits ≠ 0) (he : -360 ≤ e ∧ e ≤ 400)
    (lower : 20000000000000000 * (onGrid n e).1 ≤
      20000000000000000 * (digits * (onGrid n e).2) + (onGrid n e).1)
    (upper : 20000000000000000 * (digits * (onGrid n e).2) ≤
      20000000000000000 * (onGrid n e).1 + (onGrid n e).1) :
    place ⟨digits, e⟩ = n := by
  -- The grid is scaled by whichever side has the power of ten, and `place` divides by the same.
  cases e with
  | ofNat e =>
    have fits : ¬400 < e := by
      have : (e : Int) ≤ 400 := he.2
      omega
    have single : units n * 1 = units n := Nat.mul_one _
    have moved : digits * Nat.pow 10 e * Double.scale = digits * (Double.scale * Nat.pow 10 e) := by
      rw [Nat.mul_assoc, Nat.mul_comm (Nat.pow 10 e)]
    rw [onGrid_ofNat] at lower upper
    dsimp only at lower upper
    simp only [place, if_neg h, if_neg fits, moved]
    rw [← single] at lower upper
    exact nearest_of_close Nat.one_pos lower upper
  | negSucc e =>
    have fits : e + 1 ≤ 360 := by
      have : -360 ≤ Int.negSucc e := he.1
      omega
    rw [onGrid_negSucc] at lower upper
    dsimp only at lower upper
    rw [place_negSucc h (by omega)]
    exact nearest_of_close (Nat.pow_pos (by decide)) lower upper

/-- On a grid with 17 digits for a magnitude, one of the two decimals around it reads back. -/
theorem neighbour?_isSome (tie : Tie) {n : Nat} {e : Int} (he : -360 ≤ e ∧ e ≤ 400)
    (fine : 10000000000000000 * (onGrid n e).2 ≤ (onGrid n e).1) :
    ∃ d, neighbour? tie n e = some d := by
  have pos := onGrid_pos n e
  have parts := Nat.div_add_mod' (onGrid n e).1 (onGrid n e).2
  have rest := Nat.mod_lt (onGrid n e).1 pos
  have some : (onGrid n e).1 / (onGrid n e).2 ≠ 0 :=
    Nat.ne_of_gt (Nat.div_pos (by omega) pos)
  have next : ((onGrid n e).1 / (onGrid n e).2 + 1) * (onGrid n e).2 =
      (onGrid n e).1 / (onGrid n e).2 * (onGrid n e).2 + (onGrid n e).2 := Nat.succ_mul _ _
  have either : readsAs n ⟨(onGrid n e).1 / (onGrid n e).2, e⟩ = true ∨
      readsAs n ⟨(onGrid n e).1 / (onGrid n e).2 + 1, e⟩ = true := by
    simp only [readsAs, decide_eq_true_eq]
    -- the closer one is at most half a step away
    by_cases near : 2 * ((onGrid n e).1 % (onGrid n e).2) ≤ (onGrid n e).2
    · exact .inl (place_of_close some he (by omega) (by omega))
    · exact .inr (place_of_close (Nat.succ_ne_zero _) he (by omega) (by omega))
  simp only [neighbour?]
  rcases either with below | above
  · rw [below]
    split <;> simp_all
  · rw [above]
    split <;> simp_all

/-- A neighbour stands on the grid that was asked for, with one more step than the quotient at most.
-/
theorem of_neighbour? {tie : Tie} {n : Nat} {e : Int} {d : Decimal} (h : neighbour? tie n e = some d) :
    d.exponent = e ∧ d.digits ≤ (onGrid n e).1 / (onGrid n e).2 + 1 := by
  have below := Nat.le_succ ((onGrid n e).1 / (onGrid n e).2)
  simp only [neighbour?] at h
  split at h
  · split at h <;> simp only [Option.some.injEq] at h <;> subst h
    · exact ⟨rfl, below⟩
    · exact ⟨rfl, Nat.le_refl _⟩
    · exact ⟨rfl, Nat.le_refl _⟩
    · split
      · exact ⟨rfl, below⟩
      · exact ⟨rfl, Nat.le_refl _⟩
  · cases h; exact ⟨rfl, below⟩
  · cases h; exact ⟨rfl, Nat.le_refl _⟩
  · cases h

/-! ### The search ends on a grid -/

theorem search_succ (tie : Tie) (n steps : Nat) (e : Int) :
    search tie n (steps + 1) e = (neighbour? tie n e).getD (search tie n steps (e - 1)) := rfl

/-- On a grid where a magnitude lies below `10 ^ 17`, so do the digits of a decimal next to it, or
they are `10 ^ 17`. -/
theorem digits_neighbour?_le {tie : Tie} {n : Nat} {e : Int} {d : Decimal}
    (h : neighbour? tie n e = some d) (upper : valueAt n < (10 : ℚ) ^ (e + 17)) :
    d.digits ≤ 100000000000000000 := by
  have coarse : (onGrid n e).1 < 100000000000000000 * (onGrid n e).2 := by
    refine onGrid_lt_mul (lt_of_lt_of_eq upper ?_)
    rw [add_comm, zpow_add₀ (by norm_num)]
    norm_num
  have := (Nat.div_lt_iff_lt_mul (onGrid_pos n e)).2 coarse
  have := (of_neighbour? h).2
  omega

/-- A search whose last grid has 17 digits for the magnitude ends on one of its grids, with a number
that has no more of them. -/
theorem of_search {tie : Tie} {n : Nat} (steps : Nat) {e : Int} (he : -360 + steps ≤ e ∧ e ≤ 400)
    (lower : (10 : ℚ) ^ (e - steps + 16) ≤ valueAt n)
    (upper : valueAt n < (10 : ℚ) ^ (e - steps + 17)) :
    (search tie n (steps + 1) e).digits ≤ 100000000000000000 ∧
      e - steps ≤ (search tie n (steps + 1) e).exponent ∧
      (search tie n (steps + 1) e).exponent ≤ e := by
  have here : valueAt n < (10 : ℚ) ^ (e + 17) :=
    lt_of_lt_of_le upper (zpow_le_zpow_right₀ (by norm_num) (by omega))
  induction steps generalizing e with
  | zero =>
    have fine : 10000000000000000 * (onGrid n e).2 ≤ (onGrid n e).1 := by
      refine mul_le_onGrid (le_of_eq_of_le ?_ lower)
      rw [show e - (0 : Nat) + 16 = 16 + e by omega, zpow_add₀ (by norm_num)]
      norm_num
    -- the last grid is fine enough
    obtain ⟨d, hd⟩ := neighbour?_isSome tie (by omega) fine
    have exponent := (of_neighbour? hd).1
    rw [search_succ, hd, Option.getD_some]
    exact ⟨digits_neighbour?_le hd here, by omega, by omega⟩
  | succ steps ih =>
    rw [search_succ]
    cases hd : neighbour? tie n e with
    | some d =>
      have exponent := (of_neighbour? hd).1
      exact ⟨digits_neighbour?_le hd here, by simp only [Option.getD_some]; omega,
        by simp only [Option.getD_some]; omega⟩
    | none =>
      have same : e - 1 - (steps : Int) = e - (steps + 1 : Nat) := by omega
      have next := @ih (e - 1) (by omega) (by rwa [same]) (by rwa [same])
        (lt_of_lt_of_le upper (zpow_le_zpow_right₀ (by norm_num) (by omega)))
      simp only [Option.getD_none]
      omega

/-- The shortest decimal of a magnitude has 17 digits at most; with 18, it is a power of ten. -/
theorem digits_shortest_le (tie : Tie) {n : Nat} (hn : n < magnitudeCount) :
    (shortest tie n).digits ≤ 100000000000000000 := by
  unfold shortest
  split
  · exact Nat.zero_le _
  · next h =>
    obtain ⟨lower, upper⟩ := leadingExponent_spec h
    obtain ⟨least, most⟩ := leadingExponent_bounds h hn
    refine (of_search 17 (by omega) ?_ ?_).1
    · -- the first grid holds no digit of the number, and each further one holds one more
      rwa [show leadingExponent n - (17 : Nat) + 16 = leadingExponent n - 1 by omega]
    · rwa [show leadingExponent n - (17 : Nat) + 17 = leadingExponent n by omega]

end Decimal

end FilterLang
