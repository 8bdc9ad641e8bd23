import FilterLang.Document.Filter
import FilterLang.Catalog
import FilterLang.Query.Diagnostic

namespace FilterLang

/-!
# Document — catalogs and diagnostics as JSON

* `Catalog.json` — an object from fields to their constraints, in the order of the catalog.
* `Catalog.choice` — a field with one constraint.
* `Diagnostic.json` — a rejected row; a list of them is an array.
-/

/-- The document of a constraint: its spelling. -/
def Constraint.json (constraint : Constraint) : Json := .string constraint.spelling

/-- The document of a catalog. -/
def Catalog.json (catalog : Catalog) : Json :=
  .object (catalog.entries.map fun (field, constraints) =>
    (field, .array (constraints.map Constraint.json)))

/-- The document of a field and a constraint with which a filter can start. -/
def Catalog.choice (field : String) (constraint : Constraint) : Json :=
  .object [("field", .string field), ("constraint", constraint.json)]

namespace Diagnostic

/-- The document of a rejected row. -/
def json (d : Diagnostic) : Json :=
  .object [("row", .integer d.row), ("line", .integer d.line), ("text", .string d.text),
    ("code", .string d.fault.code),
    ("field", match d.fault.field? with
      | some field => .string field
      | none => .null),
    ("message", .string d.fault.message)]

/-- The document of all rejected rows of a text. -/
def jsonList (diagnostics : List Diagnostic) : Json := .array (diagnostics.map json)

end Diagnostic

end FilterLang
