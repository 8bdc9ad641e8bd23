import FilterLang.Text.Lines
import FilterLang.Catalog
import FilterLang.Query.Diagnostic

namespace FilterLang

/-!
# Query — from text to filters

A row is a line that is not empty: a field, a constraint and a literal, separated by single spaces.
Rows are judged in order, and a row sees the fields that accepted rows before it use.

* `Row` — the three parts of a row.
* `Scope.judge` — accepts one row as a filter, or says why not.
* `Scope.verdicts` — the verdict on every row of a text.
* `Scope.compile` — the filters of a text, or all of its diagnostics.
-/

/-- The parts of a row. -/
structure Row where
  field : String
  constraint : String
  /-- All that follows the second space; empty if there is none. -/
  literal : String
deriving DecidableEq, Repr

/-- The parts of a row, if it has a space. -/
def Row.ofText? (text : String) : Option Row :=
  match cut ' ' text.toList with
  | (_, none) => none
  | (field, some rest) =>
    let (constraint, literal) := cut ' ' rest
    some ⟨String.ofList field, String.ofList constraint, String.ofList (literal.getD [])⟩

/-- A filter that a row was accepted as, with the place of the row. -/
structure Accepted where
  row : Nat
  filter : Filter

namespace Scope

/-- The catalog after some rows have been accepted. -/
def catalogAfter (scope : Scope) (accepted : List Accepted) : Catalog :=
  .of scope.schema (Filter.fields (scope.inPlace ++ accepted.map (·.filter))) scope.blacklist

/-- Judges a row: its parts, its field, its literal, whether an accepted row uses its field, and at
last its constraint. -/
def judge (scope : Scope) (accepted : List Accepted) (text : String) : Except RowFault Filter := do
  let some row := Row.ofText? text | throw .malformed
  let some type := scope.schema.get? row.field | throw (.unknownField row.field)
  let value ← (Literal.decode type row.literal).mapError (.invalidValue row.field)
  if let some first := accepted.find? (·.filter.field = row.field) then
    throw (.duplicateField row.field first.row)
  let catalog := scope.catalogAfter accepted
  let unsupported :=
    RowFault.unsupportedConstraint row.field row.constraint ((catalog.get? row.field).getD [])
  match Constraint.ofSpelling? row.constraint with
  | some constraint =>
    if catalog.allows row.field constraint then pure ⟨row.field, constraint, value⟩
    else throw unsupported
  | none => throw unsupported

/-- The verdicts on rows, of which the first has the place `row`. -/
def verdicts (scope : Scope) :
    List Line → (row : Nat) → List Accepted → List (Except Diagnostic Filter)
  | [], _, _ => []
  | line :: lines, row, accepted =>
    match scope.judge accepted line.text with
    | .ok filter => .ok filter :: verdicts scope lines (row + 1) (accepted ++ [⟨row, filter⟩])
    | .error fault =>
      .error ⟨row, line.number, line.text, fault⟩ :: verdicts scope lines (row + 1) accepted

/-- The filters of a text, one for each row; or the diagnostics of all rejected rows. -/
def compile (scope : Scope) (text : String) : Except (List Diagnostic) (List Filter) :=
  let verdicts := scope.verdicts (Line.ofText text) 0 []
  let rejected := verdicts.filterMap fun
    | .error diagnostic => some diagnostic
    | .ok _ => none
  if rejected = [] then .ok (verdicts.filterMap Except.toOption) else .error rejected

end Scope

end FilterLang
