import FilterLang.Double.Decimal

namespace FilterLang

/-!
# Double — the fewest digits that read back

* `Decimal.shortest tie n` — among the decimals nearest to which the magnitude at place `n` lies,
  one with the fewest digits, and of those the one closest to the magnitude. `tie` decides between
  two that are equally close.
* `Decimal.plain` — a decimal written out, without an exponent: `0.00125`, `120000`.
* `Double.text` — the text of a number in query text.
* `Double.jsonText` — the text of a number in JSON.
-/

/-- Which of two decimals to take when a number lies halfway between them. -/
inductive Tie where
  /-- The larger one. -/
  | up
  /-- The one whose last digit is even. -/
  | even
deriving DecidableEq, Repr

namespace Decimal

/-! ### Search over decimal grids -/

/-- The magnitude at place `n` as a multiple of `10 ^ e`: a numerator and a denominator. -/
def onGrid (n : Nat) : Int → Nat × Nat
  | .ofNat e => (units n, Double.scale * Nat.pow 10 e)
  | .negSucc e => (units n * Nat.pow 10 (e + 1), Double.scale)

/-- Whether reading `d` gives the magnitude at place `n`. -/
def readsAs (n : Nat) (d : Decimal) : Bool := d.place = n

/-- Of the two multiples of `10 ^ e` around the magnitude at place `n`, the one that reads back, or
the closer one if both do. -/
def neighbour? (tie : Tie) (n : Nat) (e : Int) : Option Decimal :=
  let (num, den) := onGrid n e
  let below : Decimal := ⟨num / den, e⟩
  let above : Decimal := ⟨num / den + 1, e⟩
  let closer := match compare (2 * num) ((2 * below.digits + 1) * den), tie with
    | .lt, _ => below
    | .gt, _ => above
    | .eq, .up => above
    | .eq, .even => if below.digits % 2 = 0 then below else above
  match readsAs n below, readsAs n above with
  | true, true => some closer
  | true, false => some below
  | false, true => some above
  | false, false => none

/-- The magnitude at place `n`, with every digit that it has. -/
def exact (n : Nat) : Decimal := ⟨units n * Nat.pow 5 Double.unitPlaces, -Double.unitPlaces⟩

/-- The first hit on the grids `10 ^ e`, `10 ^ (e - 1)`, …; at most `steps` of them are tried. -/
def search (tie : Tie) (n : Nat) : (steps : Nat) → (e : Int) → Decimal
  | 0, _ => exact n
  | steps + 1, e => (neighbour? tie n e).getD (search tie n steps (e - 1))

/-- The number of decimal digits of `n`. -/
def width (n : Nat) : Nat := (digitText n).length

/-- The exponent `k` of the power of ten with `10 ^ (k - 1) ≤ m < 10 ^ k`, where `m` is the
magnitude at place `n`: every magnitude but zero is above `10 ^ -400`. -/
def leadingExponent (n : Nat) : Int := width (units n * Nat.pow 10 400 / Double.scale) - 400

/-- The decimal with the fewest digits that reads back as the magnitude at place `n`. The first
grid holds no number below the power of ten above the magnitude; on the last one, 17 digits tell any
two magnitudes apart. -/
def shortest (tie : Tie) (n : Nat) : Decimal :=
  if n = 0 then ⟨0, 0⟩ else search tie n 18 (leadingExponent n)

/-! ### Text of a decimal -/

/-- A decimal written out, without an exponent. -/
def plain (d : Decimal) : List Char :=
  match d.exponent with
  | .ofNat e => if d.digits = 0 then ['0'] else digitText d.digits ++ List.replicate e '0'
  | .negSucc e =>
    let digits := padded (e + 2) d.digits
    let point := digits.length - (e + 1)
    digits.take point ++ '.' :: digits.drop point

/-- A decimal as one digit, further digits after a point, and an exponent with its sign. -/
def scientific (d : Decimal) : List Char :=
  let digits := digitText d.digits
  let e := d.exponent + (digits.length - 1 : Nat)
  let mark := if 0 ≤ e then ['e', '+'] else ['e', '-']
  let rest := match digits.drop 1 with
    | [] => []
    | more => '.' :: more
  digits.take 1 ++ rest ++ mark ++ digitText e.natAbs

end Decimal

namespace Double

/-- The minus sign of a negative number. -/
def signText (d : Double) : List Char := if d.negative then ['-'] else []

/-- The text of a number in query text: the fewest digits that read back, never an exponent. Of two
that are equally close, the larger one. -/
def text (d : Double) : List Char :=
  d.signText ++ (Decimal.shortest .up d.magnitude).plain

/-- The text of a number in JSON: the fewest digits that read back, and of two that are equally
close the even one. A number from `10 ^ -5` up to below `10 ^ 16` is written out, with at least
one digit after the point; any other has an exponent. -/
def jsonText (d : Double) : List Char :=
  let decimal := Decimal.shortest .even d.magnitude
  let leading := decimal.exponent + (Decimal.width decimal.digits : Int)
  let body :=
    if leading ≤ -5 ∨ 16 < leading then decimal.scientific
    else if decimal.exponent < 0 then decimal.plain
    else decimal.plain ++ ['.', '0']
  d.signText ++ body

end Double

end FilterLang
