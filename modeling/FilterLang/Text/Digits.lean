namespace FilterLang

/-!
# Text — decimal digits

* `readDigits` / `digitText` — the number that digits write, and the digits of a number;
  `readDigits_digitText` says that they are inverse.
* `padded width n` — the digits of `n` with zeros in front, `width` of them at least.
* `leadingDigits`, `afterDigits` — a text in two: the digits at its start, and the rest.
  `leadingDigits_append` and `afterDigits_append` say what they are when digits are put in front.
-/

/-- The number that decimal digits write. -/
def readDigits (digits : List Char) : Nat := Nat.ofDigitChars 10 digits 0

/-- The decimal digits of a number, without leading zeros. -/
def digitText (n : Nat) : List Char := Nat.toDigits 10 n

/-- The decimal digits of a number, filled up with leading zeros to `width`. -/
def padded (width n : Nat) : List Char :=
  List.replicate (width - (digitText n).length) '0' ++ digitText n

/-- The digits that a text starts with. -/
def leadingDigits (text : List Char) : List Char := text.takeWhile Char.isDigit

/-- What follows the digits that a text starts with. -/
def afterDigits (text : List Char) : List Char := text.dropWhile Char.isDigit

/-! ### Laws -/

/-- The digits of a number are read as this number. -/
@[simp] theorem readDigits_digitText (n : Nat) : readDigits (digitText n) = n :=
  Nat.ofDigitChars_toDigits (by decide) (by decide)

theorem digitText_ne_nil (n : Nat) : digitText n ≠ [] := Nat.toDigits_ne_nil

theorem isDigit_of_mem_digitText {n : Nat} {c : Char} (h : c ∈ digitText n) : c.isDigit = true :=
  Nat.isDigit_of_mem_toDigits (by decide) (by decide) h

/-- Zeros in front do not count. -/
theorem readDigits_replicate_zero (k : Nat) (digits : List Char) :
    readDigits (List.replicate k '0' ++ digits) = readDigits digits := by
  unfold readDigits Nat.ofDigitChars
  induction k with
  | zero => rfl
  | succ k ih => simpa [List.replicate_succ] using ih

/-- So a number is read as it was, however wide it has been written. -/
@[simp] theorem readDigits_padded (width n : Nat) : readDigits (padded width n) = n := by
  rw [padded, readDigits_replicate_zero, readDigits_digitText]

/-- A text is its leading digits and what follows them. -/
theorem leadingDigits_append_afterDigits (text : List Char) :
    leadingDigits text ++ afterDigits text = text :=
  List.takeWhile_append_dropWhile

theorem isDigit_of_mem_padded {width n : Nat} {c : Char} (h : c ∈ padded width n) :
    c.isDigit = true := by
  rcases List.mem_append.1 h with h | h
  · rw [List.eq_of_mem_replicate h]; decide
  · exact isDigit_of_mem_digitText h

/-- It is as wide as it has to be. -/
theorem le_length_padded (width n : Nat) : width ≤ (padded width n).length := by
  simp only [padded, List.length_append, List.length_replicate]
  omega

/-- Digits in front of a text that starts with none are all that it starts with. -/
theorem leadingDigits_append {digits rest : List Char} (h : ∀ c ∈ digits, c.isDigit = true)
    (hr : leadingDigits rest = []) : leadingDigits (digits ++ rest) = digits := by
  rw [leadingDigits] at hr ⊢
  rw [List.takeWhile_append_of_pos h, hr, List.append_nil]

/-- Digits before a text that starts with none are skipped. -/
theorem afterDigits_append {digits rest : List Char} (h : ∀ c ∈ digits, c.isDigit = true)
    (hr : leadingDigits rest = []) : afterDigits (digits ++ rest) = rest := by
  have whole := leadingDigits_append_afterDigits (digits ++ rest)
  rw [leadingDigits_append h hr] at whole
  exact List.append_cancel_left whole

/-- Each zero behind the digits is a factor of ten. -/
theorem readDigits_append_zeros (digits : List Char) (k : Nat) :
    readDigits (digits ++ List.replicate k '0') = readDigits digits * Nat.pow 10 k := by
  rw [readDigits, Nat.ofDigitChars_append, Nat.ofDigitChars_replicate_zero, Nat.mul_comm]
  rfl

end FilterLang
