import FilterLang.Query.Compile

namespace FilterLang

/-!
# Suggestion — what can be typed next

Only the last line of a text is completed. The lines before it matter for the fields that their
first tokens name, whether or not these lines are valid.

* `Scope.suggest` — the suggestions for a text, in the order of the catalog.
-/

/-- The lines before the last line feed of a text, and the text after it. -/
def lastLine (text : List Char) : List (List Char) × List Char :=
  let pieces := text.splitOn '\n'
  (endedLines pieces.dropLast, pieces.getLast?.getD [])

/-- The first token of a line. -/
def firstToken (line : List Char) : String := String.ofList (cut ' ' line).1

namespace Scope

/-- The declared fields that the first tokens of lines name. -/
def mentioned (scope : Scope) (lines : List (List Char)) : List String :=
  ((lines.filter (· ≠ [])).map firstToken).filter scope.schema.contains

/-- The catalog for the line after `earlier` lines. -/
def catalogBelow (scope : Scope) (earlier : List (List Char)) : Catalog :=
  .of scope.schema (Filter.fields scope.inPlace ++ scope.mentioned earlier) scope.blacklist

/-- What could stand in place of the last token: the constraints of a field that is listed, as long
as no literal has been started; or any field in place of a lone token that is no listed field. -/
def candidates (catalog : Catalog) : (tokens : List (List Char)) → List String
  | [field] =>
    match catalog.get? (String.ofList field) with
    | some constraints => constraints.map (·.spelling)
    | none => catalog.fields
  | [field, _] =>
    match catalog.get? (String.ofList field) with
    | some constraints => constraints.map (·.spelling)
    | none => []
  | _ => []

/-- The suggestions for the last line of a text: the candidates that its last token is part of. -/
def suggest (scope : Scope) (text : String) : List String :=
  let (earlier, last) := lastLine text.toList
  let tokens := (dropReturn last).splitOn ' '
  let fragment := tokens.getLast?.getD []
  (candidates (scope.catalogBelow earlier) tokens).filter (occursIn fragment ·.toList)

end Scope

end FilterLang
