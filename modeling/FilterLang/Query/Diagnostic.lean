import FilterLang.Literal
import FilterLang.Constraint

namespace FilterLang

/-!
# Query — diagnostics

* `RowFault` — why a row of query text is rejected; `RowFault.code` and `RowFault.message` are its
  stable code and its text.
* `Diagnostic` — a rejected row, where it stands and why.
-/

/-- Why a row is rejected. -/
inductive RowFault where
  /-- The row has no constraint. -/
  | malformed
  /-- The schema has no such field. -/
  | unknownField (field : String)
  /-- The literal has no value for the field's type. -/
  | invalidValue (field : String) (cause : Literal.Fault)
  /-- The constraint is unknown, or not one of those left for the field. -/
  | unsupportedConstraint (field constraint : String) (available : List Constraint)
  /-- An earlier row that was accepted uses the field. -/
  | duplicateField (field : String) (firstRow : Nat)
deriving DecidableEq, Repr

namespace RowFault

/-- The name of the fault within its code. -/
def name : RowFault → String
  | malformed => "MALFORMED_ROW"
  | unknownField _ => "UNKNOWN_FIELD"
  | invalidValue _ _ => "INVALID_COMPARE_TO"
  | unsupportedConstraint _ _ _ => "UNSUPPORTED_CONSTRAINT"
  | duplicateField _ _ => "DUPLICATE_FIELD"

/-- The stable code of a fault. -/
def code (fault : RowFault) : String := "FILTERQ_" ++ fault.name

/-- The field that the row names. -/
def field? : RowFault → Option String
  | malformed => none
  | unknownField field | invalidValue field _ | unsupportedConstraint field _ _
  | duplicateField field _ => some field

/-- What is said of a fault. -/
def message : RowFault → String
  | malformed => "Expected '<field> <constraint> [value]'; constraint is missing"
  | unknownField field => s!"Unknown field '{field}'"
  | invalidValue field cause => s!"Invalid value for '{field}': {cause.message}"
  | unsupportedConstraint field constraint available =>
    let left := match available with
      | [] => "no constraints are available"
      | _ => "available constraints are " ++ ", ".intercalate (available.map Constraint.spelling)
    s!"'{field}' does not have constraint '{constraint}', {left}"
  | duplicateField field firstRow => s!"Field '{field}' is already filtered in row {firstRow}"

end RowFault

/-- A rejected row. -/
structure Diagnostic where
  /-- Its place among the rows, from 0. -/
  row : Nat
  /-- Its line in the text, from 1. -/
  line : Nat
  text : String
  fault : RowFault
deriving DecidableEq, Repr

namespace Diagnostic

/-- A diagnostic as one line of text. -/
def display (d : Diagnostic) : String := s!"[{d.fault.code}] line {d.line}: {d.fault.message}"

/-- What is said of a query with rejected rows. -/
def summary (diagnostics : List Diagnostic) : String :=
  s!"query has {diagnostics.length} invalid row(s)"

end Diagnostic

end FilterLang
