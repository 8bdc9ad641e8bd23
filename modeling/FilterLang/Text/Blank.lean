namespace FilterLang

/-!
# Text — blank characters

* `isBlank c` — `c` has the Unicode property `White_Space`; these are the characters that a field
  name and an object id may not hold, and that surround a date without changing it.
* `trimStart`, `trim` — a text without the blanks at its start, or at both ends.
-/

/-- The code points with the Unicode property `White_Space`, as closed ranges. -/
def blankRanges : List (Nat × Nat) :=
  [(0x9, 0xD), (0x20, 0x20), (0x85, 0x85), (0xA0, 0xA0), (0x1680, 0x1680), (0x2000, 0x200A),
    (0x2028, 0x2029), (0x202F, 0x202F), (0x205F, 0x205F), (0x3000, 0x3000)]

/-- Whether `c` is a blank of any script, line breaks included. -/
def isBlank (c : Char) : Bool :=
  blankRanges.any fun range => range.1 ≤ c.toNat && c.toNat ≤ range.2

/-- `text` from its first character that is not blank. -/
def trimStart (text : List Char) : List Char := text.dropWhile isBlank

/-- `text` without the blanks at its two ends. -/
def trim (text : List Char) : List Char :=
  (trimStart (trimStart text).reverse).reverse

example : isBlank '\u0085' = true ∧ isBlank '\u200b' = false ∧ isBlank '\ufeff' = false := by decide

/-- A text that does not start with a blank stays as it is. -/
theorem trimStart_eq_self {c : Char} {rest : List Char} (h : isBlank c = false) :
    trimStart (c :: rest) = c :: rest := by
  simp [trimStart, h]

end FilterLang
