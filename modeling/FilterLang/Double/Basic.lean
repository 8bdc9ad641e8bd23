namespace FilterLang

/-!
# Double — finite binary64 numbers

The numbers of the query language are the finite numbers of IEEE 754 binary64.

* `Double` — a sign and a magnitude. A magnitude is the place of the number among all magnitudes
  in increasing order; written in binary it is the exponent field followed by the fraction.
* `units n` — the value of the magnitude at place `n`, counted in units of `2 ^ -1074`, the least
  positive magnitude. `Double.scale` is the number of those units in one.
* `nearest num den` — the place of the magnitude nearest to `num / den` units; of two that are
  equally near, the one whose fraction is even.
* `Double.ofRatio?` — the double nearest to a ratio, unless the ratio is too large for any.
-/

/-- The number of fractions that one exponent field has: it is `2 ^ 52`. -/
def fractionCount : Nat := 0x10000000000000

/-- The number of finite magnitudes. -/
def magnitudeCount : Nat := 2047 * fractionCount

/-- A finite binary64 number. Zero has two signs. -/
structure Double where
  /-- Whether the sign is a minus. -/
  negative : Bool
  /-- The place of the magnitude among all finite magnitudes. -/
  magnitude : Fin magnitudeCount
deriving DecidableEq

/-- The value of the magnitude at place `n`, in units of `2 ^ -1074`. -/
def units (n : Nat) : Nat :=
  if n < fractionCount then n
  else (fractionCount + n % fractionCount) * Nat.pow 2 (n / fractionCount - 1)

namespace Double

/-- The binary places of a unit after the point. -/
def unitPlaces : Nat := 1074

/-- The number of units in one. -/
def scale : Nat := Nat.pow 2 unitPlaces

instance : Inhabited Double := ⟨⟨false, 0, by decide⟩⟩

instance : Repr Double where
  reprPrec d _ := (if d.negative then "-" else "") ++ repr (units d.magnitude) ++ "/2^1074"

/-- The double at a place, unless the place lies beyond the last finite magnitude. -/
def ofPlace? (negative : Bool) (place : Nat) : Option Double :=
  if h : place < magnitudeCount then some ⟨negative, place, h⟩ else none

/-- The number of its magnitude's units. -/
def size (d : Double) : Nat := units d.magnitude

/-- Zero of either sign. -/
def isZero (d : Double) : Bool := d.magnitude.val = 0

/-- The 64 bits of the interchange format, read as one number; the first of them is the sign. -/
def bits (d : Double) : Nat := (if d.negative then 0x8000000000000000 else 0) + d.magnitude

/-- Equality of numbers: the two zeros agree. -/
def agrees (a b : Double) : Bool := a = b || (a.isZero && b.isZero)

@[simp] theorem agrees_self (d : Double) : d.agrees d = true := by simp [agrees]

/-- The whole number that a double is, if it is one. -/
def whole? (d : Double) : Option Int :=
  if d.size % scale = 0 then
    some (if d.negative then -(d.size / scale : Nat) else (d.size / scale : Nat))
  else none

end Double

/-! ### Rounding -/

/-- The quotient of two natural numbers, rounded to the nearest; a half goes to the even side. -/
def roundedQuotient (num den : Nat) : Nat :=
  let below := num / den
  let twice := 2 * (num % den)
  if twice < den ∨ (twice = den ∧ below % 2 = 0) then below else below + 1

/-- The place of the magnitude nearest to `num / den` units. From `2 ^ 53` units on, magnitudes lie
`2 ^ s` units apart, where `s` is what the whole part's binary length exceeds 53 by; a round up to
the next power of two needs no care, as its place is the next one. -/
def nearest (num den : Nat) : Nat :=
  let s := (num / den).log2 - 52
  s * fractionCount + roundedQuotient num (den * Nat.pow 2 s)

/-- The double nearest to `num / den`, unless that lies beyond the last finite magnitude. -/
def Double.ofRatio? (negative : Bool) (num den : Nat) : Option Double :=
  Double.ofPlace? negative (nearest (num * scale) den)

namespace Double

/-- The double nearest to a number below `2 ^ 64`, and to any other below `2 ^ 1024 - 2 ^ 970`. -/
def ofNat (n : Nat) : Double := (ofRatio? false n 1).getD default

/-- The double nearest to a power of ten up to the 308th. -/
def powerOfTen (e : Nat) : Double := ofNat (Nat.pow 10 e)

/-- The product of two doubles without their signs, rounded; none if it is too large. -/
def times? (a b : Double) : Option Double := ofRatio? false (a.size * b.size) (scale * scale)

/-- The quotient of two doubles without their signs, rounded; none if it is too large. -/
def over? (a b : Double) : Option Double := ofRatio? false a.size b.size

end Double

end FilterLang
