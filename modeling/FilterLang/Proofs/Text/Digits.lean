import Mathlib.Algebra.Group.Nat.Defs
import FilterLang.Text.Blank
import FilterLang.Text.Digits

namespace FilterLang

/-!
# Text — how long a number is

* `length_padded` — a number that fits is filled up to exactly the given width.
* `readDigits_append`, `readDigits_lt` — the number that digits write, from its parts, and how large
  it can be.
* `length_digitText_le_iff` — the number of digits of a number.
* `IsNumeral` — digits without a zero in front of them; `isNumeral_digitText` says that a number is
  written like this.
-/

theorem isBlank_of_isDigit {c : Char} (h : c.isDigit = true) : isBlank c = false := by
  obtain ⟨low, high⟩ := Char.isDigit_iff_toNat.1 h
  have zero : '0'.toNat = 48 := by decide
  have nine : '9'.toNat = 57 := by decide
  simp [isBlank, blankRanges]
  omega

theorem isDigit_of_mem_leadingDigits {text : List Char} {c : Char} (h : c ∈ leadingDigits text) :
    c.isDigit = true :=
  List.all_eq_true.1 List.all_takeWhile c h

/-- A number has at most as many digits as the power of ten above it has zeros. -/
theorem length_digitText_le_iff {n k : Nat} (h : 0 < k) :
    (digitText n).length ≤ k ↔ n < 10 ^ k :=
  Nat.length_toDigits_le_iff (by decide) h

/-- A number that fits is filled up to exactly the given width. -/
theorem length_padded {width n : Nat} (h0 : 0 < width) (h : n < 10 ^ width) :
    (padded width n).length = width := by
  have := (length_digitText_le_iff h0).2 h
  simp only [padded, List.length_append, List.length_replicate]
  omega

/-- Digits that are put behind others shift these. -/
theorem readDigits_append (first second : List Char) :
    readDigits (first ++ second) = readDigits first * 10 ^ second.length + readDigits second := by
  rw [readDigits, Nat.ofDigitChars_append, Nat.ofDigitChars_eq_ofDigitChars_zero, Nat.mul_comm]
  rfl

/-- The first digits of a number do not write a larger one. -/
theorem readDigits_le_append (first second : List Char) :
    readDigits first ≤ readDigits (first ++ second) := by
  rw [readDigits_append]
  exact Nat.le_trans (Nat.le_mul_of_pos_right _ (Nat.pow_pos (by decide))) (Nat.le_add_right _ _)

theorem readDigits_singleton (c : Char) : readDigits [c] = c.toNat - '0'.toNat := by
  simp [readDigits, Nat.ofDigitChars_cons]

/-- Digits write a number that has no more of them. -/
theorem readDigits_lt {digits : List Char} (h : ∀ c ∈ digits, c.isDigit = true) :
    readDigits digits < 10 ^ digits.length := by
  induction digits with
  | nil => decide
  | cons c digits ih =>
    have tail := ih fun d hd => h d (List.mem_cons_of_mem _ hd)
    obtain ⟨low, high⟩ := Char.isDigit_iff_toNat.1 (h c List.mem_cons_self)
    have first : readDigits [c] + 1 ≤ 10 := by
      rw [readDigits_singleton]
      have : '0'.toNat = 48 ∧ '9'.toNat = 57 := by decide
      omega
    have whole := readDigits_append [c] digits
    rw [List.singleton_append] at whole
    calc readDigits (c :: digits)
        < readDigits [c] * 10 ^ digits.length + 10 ^ digits.length := by omega
      _ = (readDigits [c] + 1) * 10 ^ digits.length := (Nat.succ_mul _ _).symm
      _ ≤ 10 * 10 ^ digits.length := Nat.mul_le_mul_right _ first
      _ = 10 ^ (c :: digits).length := by rw [List.length_cons, Nat.pow_succ, Nat.mul_comm]

/-! ### Numerals -/

/-- A text that starts with no digit is skipped nowhere. -/
theorem afterDigits_eq_self {text : List Char} (h : leadingDigits text = []) :
    afterDigits text = text := by
  have whole := leadingDigits_append_afterDigits text
  rwa [h, List.nil_append] at whole

/-- Digits, at least one, of which the first is no zero, unless it is the only one. -/
structure IsNumeral (digits : List Char) : Prop where
  ne_nil : digits ≠ []
  isDigit : ∀ c ∈ digits, c.isDigit = true
  first : digits = ['0'] ∨ digits.head? ≠ some '0'

theorem isNumeral_singleton {c : Char} (h : c.isDigit = true) : IsNumeral [c] where
  ne_nil := List.cons_ne_nil _ _
  isDigit := by simpa using h
  first := by
    by_cases zero : c = '0'
    · exact .inl (congrArg ([·]) zero)
    · exact .inr (by simpa using zero)

/-- A positive number is not written with a zero in front. -/
theorem head?_digitText {n : Nat} (h : n ≠ 0) : (digitText n).head? ≠ some '0' := by
  intro zero
  obtain ⟨rest, written⟩ := List.head?_eq_some_iff.1 zero
  have digits : ∀ c ∈ rest, c.isDigit = true := by
    intro c hc
    exact isDigit_of_mem_digitText (written ▸ List.mem_cons_of_mem _ hc : c ∈ digitText n)
  -- without its leading zero the text still reads as `n`, with a digit fewer than `n` has
  have same : readDigits rest = n := by
    rw [← readDigits_replicate_zero 1 rest, ← readDigits_digitText n, written]
    rfl
  have small := readDigits_lt digits
  rw [same] at small
  by_cases none : rest.length = 0
  · rw [none] at small
    omega
  · have short := (length_digitText_le_iff (Nat.pos_of_ne_zero none)).2 small
    rw [written, List.length_cons] at short
    omega

theorem isNumeral_digitText (n : Nat) : IsNumeral (digitText n) where
  ne_nil := digitText_ne_nil n
  isDigit _ := isDigit_of_mem_digitText
  first := by
    by_cases zero : n = 0
    · exact .inl (zero ▸ rfl)
    · exact .inr (head?_digitText zero)

end FilterLang
