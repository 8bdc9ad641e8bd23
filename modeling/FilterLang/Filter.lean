import FilterLang.Constraint
import FilterLang.Literal

namespace FilterLang

/-!
# Filter — a field, a constraint and a value

* `Filter` — one comparison; a list of them is their conjunction, in order.
* `Filter.line` — a filter as a row of query text.
* `Filter.query` — a list of filters as query text, one row each.
-/

/-- One comparison of a field. -/
structure Filter where
  field : String
  constraint : Constraint
  /-- What the field is compared with. -/
  compareTo : Value
deriving DecidableEq, Repr

namespace Filter

/-- Equality of filters; the two zeros agree. -/
def agrees (a b : Filter) : Bool :=
  a.field = b.field && a.constraint = b.constraint && a.compareTo.agrees b.compareTo

/-- Equality of lists of filters. -/
def allAgree : List Filter → List Filter → Bool
  | [], [] => true
  | a :: as, b :: bs => a.agrees b && allAgree as bs
  | _, _ => false

@[simp] theorem agrees_self (f : Filter) : f.agrees f = true := by simp [agrees]

@[simp] theorem allAgree_self (filters : List Filter) : allAgree filters filters = true := by
  induction filters <;> simp_all [allAgree]

/-- The fields that filters use, in order. -/
def fields (filters : List Filter) : List String := filters.map (·.field)

/-- A filter as a row of query text. -/
def line (f : Filter) : String :=
  f.field ++ " " ++ f.constraint.spelling ++ " " ++ f.compareTo.literal

/-- Filters as query text: one row each, with line feeds between them. -/
def query (filters : List Filter) : String := "\n".intercalate (filters.map line)

end Filter

end FilterLang
