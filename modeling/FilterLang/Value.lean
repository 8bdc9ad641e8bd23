import FilterLang.Double.Basic
import FilterLang.Instant.Basic

namespace FilterLang

/-!
# Value — what a filter compares a field with

* `Value` — a truth value, a finite number, a text, an instant or a reference to an object.
* `Value.agrees` — equality of values: as `=`, but the two zeros agree.
-/

/-- The right-hand side of a comparison. -/
inductive Value where
  /-- A truth value; every kind of field takes one. -/
  | bool (b : Bool)
  | number (n : Double)
  | text (s : String)
  | date (i : Instant)
  /-- An object of the target class. -/
  | pointer (targetClass objectId : String)
deriving DecidableEq, Repr

namespace Value

/-- Equality of values; the two zeros agree. -/
def agrees : Value → Value → Bool
  | number a, number b => a.agrees b
  | a, b => a = b

@[simp] theorem agrees_self (v : Value) : v.agrees v = true := by
  cases v <;> simp [agrees]

end Value

end FilterLang
