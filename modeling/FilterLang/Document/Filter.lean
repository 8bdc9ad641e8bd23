import FilterLang.Document.Value
import FilterLang.Filter

namespace FilterLang

/-!
# Document — filters as JSON

* `Filter.json` — `{"field":…,"constraint":…,"compareTo":…}`; a list of filters is an array.
* `Filter.parse`, `Filter.parseList` — the filter or the filters that a text holds.
-/

namespace Filter

/-- The document of a filter. -/
def json (f : Filter) : Json :=
  .object [("field", .string f.field), ("constraint", .string f.constraint.spelling),
    ("compareTo", f.compareTo.json)]

/-- The document of a list of filters. -/
def jsonList (filters : List Filter) : Json := .array (filters.map json)

/-- What has been read of a filter. -/
structure Draft where
  field : Option String
  constraint : Option Constraint
  compareTo : Option Value

/-- The members of a filter. -/
def record : Json.Record Draft where
  name := "Filter"
  start := ⟨none, none, none⟩
  slots := [
    { name := "field", optional := false, isFilled := (·.field.isSome)
      fill := fun _ draft => do
        pure { draft with field := some (← Json.expectString "a string") } },
    { name := "constraint", optional := false, isFilled := (·.constraint.isSome)
      fill := fun depth draft => do
        let names := Constraint.all.map fun c => (c.spelling, c)
        pure { draft with constraint := some (← Json.expectVariant depth names) } },
    { name := "compareTo", optional := false, isFilled := (·.compareTo.isSome)
      fill := fun depth draft => do
        pure { draft with compareTo := some (← Value.reader depth) } }]

/-- The filter that a draft makes, or the first member that it lacks. -/
def Draft.finish (draft : Draft) : Except Json.Fault Filter := do
  let field ← Json.required "field" draft.field
  let constraint ← Json.required "constraint" draft.constraint
  let compareTo ← Json.required "compareTo" draft.compareTo
  pure ⟨field, constraint, compareTo⟩

/-- Reads a filter. -/
def reader (depth : Nat) : Json.Reader Filter := do
  (← record.reader depth).finish

/-- Reads a list of filters. -/
def listReader (depth : Nat) : Json.Reader (List Filter) := Json.list depth reader

/-- The filter that a text holds. -/
def parse (text : String) : Except Json.Fault Filter := Json.whole reader text

/-- The filters that a text holds. -/
def parseList (text : String) : Except Json.Fault (List Filter) := Json.whole listReader text

end Filter

end FilterLang
