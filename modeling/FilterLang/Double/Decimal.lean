import FilterLang.Text.Digits
import FilterLang.Double.Basic

namespace FilterLang

/-!
# Double — decimals and their text

* `Decimal` — a natural number times a power of ten.
* `Decimal.place` — the place of the magnitude nearest to a decimal.
* `Decimal.ofText?` — a sign and digits with an optional point and exponent:
  `[+-]? (digits [. digits?] | . digits) ([eE] [+-]? digits)?`, with digits of ASCII only.
* `Double.ofText?` — the double nearest to what a text says, unless the text is no decimal or its
  number too large.
-/

/-- The number `digits * 10 ^ exponent`. -/
structure Decimal where
  digits : Nat
  exponent : Int
deriving DecidableEq, Repr

namespace Decimal

/-- The place of the magnitude nearest to the decimal; from `magnitudeCount` on, there is none. A
decimal at 1 or more times `10 ^ 401` lies beyond all magnitudes, and one below `2 ^ -1080` is
nearest to zero: neither is computed, so that a long exponent costs nothing. -/
def place (d : Decimal) : Nat :=
  if d.digits = 0 then 0
  else match d.exponent with
  | .ofNat e =>
    if 400 < e then magnitudeCount else nearest (d.digits * Nat.pow 10 e * Double.scale) 1
  | .negSucc e =>
    if d.digits.log2 + 1081 < 3 * (e + 1) then 0
    else nearest (d.digits * Double.scale) (Nat.pow 10 (e + 1))

/-! ### Reading -/

/-- A whole number with an optional sign, and nothing else. -/
def signed? : List Char → Option Int
  | '+' :: rest => magnitude? rest
  | '-' :: rest => (magnitude? rest).map (- ·)
  | text => magnitude? text
where
  /-- Digits, at least one, and nothing else. -/
  magnitude? (text : List Char) : Option Int :=
    if leadingDigits text ≠ [] ∧ afterDigits text = [] then some (readDigits text) else none

/-- What may follow the digits: nothing, or an exponent. -/
def exponent? : List Char → Option Int
  | [] => some 0
  | c :: rest => if c = 'e' ∨ c = 'E' then signed? rest else none

/-- The digits after a point, if there is a point, and what follows them. -/
def fraction : List Char → List Char × List Char
  | '.' :: rest => (leadingDigits rest, afterDigits rest)
  | text => ([], text)

/-- A decimal without a sign. -/
def unsigned? (text : List Char) : Option Decimal :=
  let whole := leadingDigits text
  let (places, rest) := fraction (afterDigits text)
  if whole = [] ∧ places = [] then none
  else (exponent? rest).map fun e => ⟨readDigits (whole ++ places), e - places.length⟩

/-- A decimal after an optional sign, with whether that sign is a minus. -/
def ofText? : List Char → Option (Bool × Decimal)
  | '+' :: rest => (unsigned? rest).map (false, ·)
  | '-' :: rest => (unsigned? rest).map (true, ·)
  | text => (unsigned? text).map (false, ·)

end Decimal

/-- The double nearest to the number that a text writes. -/
def Double.ofText? (text : List Char) : Option Double := do
  let (negative, decimal) ← Decimal.ofText? text
  Double.ofPlace? negative decimal.place

end FilterLang
