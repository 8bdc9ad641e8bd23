import FilterLang.Document.Report
import FilterLang.Suggestion

namespace FilterLang

/-!
# Editor — a query under edit

An editor holds a schema, a blacklist, the filters that are applied, and a text that is being typed.

* `Editor` — its state. The applied filters count as in place for what is typed.
* `Editor.typed`, `Editor.commit`, `Editor.reopen` — how text becomes filters and filters text.
-/

/-- The state of an editor. -/
structure Editor where
  schema : Schema
  blacklist : Blacklist
  applied : List Filter
  /-- The text that is being typed. -/
  buffer : String

namespace Editor

/-- The editor at the start: nothing has been typed. -/
def start (schema : Schema) (blacklist : Blacklist) (applied : List Filter) : Editor :=
  ⟨schema, blacklist, applied, ""⟩

/-- What the text is judged by. -/
def scope (e : Editor) : Scope := ⟨e.schema, e.applied, e.blacklist⟩

/-! ### Setting -/

/-- The editor after a field has been declared. -/
def withField (e : Editor) (name : String) (type : FieldType) : Editor :=
  { e with schema := e.schema.withField name type }

/-- The editor with another schema. -/
def withSchema (e : Editor) (schema : Schema) : Editor := { e with schema }

/-- The editor with one more banned constraint. -/
def ban (e : Editor) (constraint : Constraint) : Editor :=
  { e with blacklist := e.blacklist.ban constraint }

/-- The editor without any banned constraint. -/
def allowAll (e : Editor) : Editor := { e with blacklist := .empty }

/-! ### Text -/

/-- The editor after more text has been typed. -/
def typed (e : Editor) (text : String) : Editor := { e with buffer := e.buffer ++ text }

/-- The suggestions for the text. -/
def suggestions (e : Editor) : List String := e.scope.suggest e.buffer

/-- The suggestions for every beginning of a text, the empty one and the whole text included. -/
def typing (scope : Scope) (text : String) : List (List String) :=
  (List.range (text.length + 1)).map fun n => scope.suggest (String.ofList (text.toList.take n))

/-- The editor without text. -/
def wipe (e : Editor) : Editor := { e with buffer := "" }

/-- The filters of the text, next to those that are applied. -/
def check (e : Editor) : Except (List Diagnostic) (List Filter) := e.scope.compile e.buffer

/-- Applies the filters of the text, after those that are applied, and clears the text; an invalid
text changes nothing. -/
def commit (e : Editor) : Editor :=
  match e.check with
  | .ok filters => { e with applied := e.applied ++ filters, buffer := "" }
  | .error _ => e

/-- Turns the applied filters into text again. -/
def reopen (e : Editor) : Editor := { e with applied := [], buffer := Filter.query e.applied }

/-! ### Applied filters -/

/-- The editor with other applied filters. -/
def load (e : Editor) (filters : List Filter) : Editor := { e with applied := filters }

/-- The editor with one more applied filter. -/
def append (e : Editor) (filter : Filter) : Editor := { e with applied := e.applied ++ [filter] }

/-- The editor without the applied filter at a place; without such a filter, nothing changes. -/
def without (e : Editor) (index : Nat) : Editor :=
  { e with applied := e.applied.eraseIdx index }

/-- The editor without applied filters. -/
def clear (e : Editor) : Editor := { e with applied := [] }

/-- Whether an applied filter uses a field. -/
def uses (e : Editor) (field : String) : Bool := field ∈ Filter.fields e.applied

end Editor

end FilterLang
