import FilterLang.Config
import FilterLang.Document.Report
import FilterLang.Document.Schema
import FilterLang.Suggestion

namespace FilterLang

/-!
# Service — what a client can ask for

Each request works on a text, a schema and a blacklist; no filters are in place.

* `Service.compile`, `Service.render`, `Service.suggest`, `Service.catalog`,
  `Service.defaultFilter` — the requests. Answers are documents with sorted members, and the one of
  `render` is query text.
* `Failure` — why a request has no answer, with its code and its text.
-/

namespace Schema

/-- Why a schema cannot be loaded. -/
inductive LoadFault where
  /-- The file cannot be read. -/
  | unreadable (path : String) (fault : ReadFault)
  /-- The text of the source holds no usable schema. -/
  | malformed (source : String) (defect : Defect)
deriving Repr

/-- The stable code of a fault. -/
def LoadFault.code : LoadFault → String
  | unreadable _ _ => "FILTERQ_SCHEMA_IO"
  | malformed _ _ => "FILTERQ_SCHEMA_MALFORMED"

/-- What is said of a fault. -/
def LoadFault.message : LoadFault → String
  | unreadable path fault => s!"Failed to read schema '{path}': {fault.message}"
  | malformed source defect => s!"Malformed schema '{source}': {defect.message}"

/-- The schema that a text from a named source holds. -/
def load (source text : String) : Except LoadFault Schema :=
  (parse text).mapError (.malformed source)

end Schema

/-- Why a text is no list of filters that query text can express. -/
inductive InputFault where
  /-- It is no document of a list of filters. -/
  | noList (fault : Json.Fault)
  /-- Its query text has invalid rows. -/
  | invalidRows (diagnostics : List Diagnostic)
  /-- Its query text means something else. -/
  | changes
deriving Repr

/-- What is said of a list of filters. -/
def InputFault.message : InputFault → String
  | noList fault => s!"Invalid filter list: {fault.message}"
  | invalidRows diagnostics =>
    let rows := "; ".intercalate (diagnostics.map Diagnostic.display)
    s!"Filter list does not render to a valid query: {rows}"
  | changes => "Filter list changes when its query text is compiled again"

/-- Why a request has no answer. -/
inductive Failure where
  | config (fault : Config.Fault)
  /-- The input cannot be read. -/
  | input (fault : ReadFault)
  | schema (fault : Schema.LoadFault)
  | invalidInput (fault : InputFault)
  /-- The query text has invalid rows. -/
  | compileFailed (diagnostics : List Diagnostic)
deriving Repr

namespace Failure

/-- The stable code of a failure. -/
def code : Failure → String
  | config _ => "FILTERQ_CLI_CONFIG_ERROR"
  | input _ => "FILTERQ_CLI_IO_ERROR"
  | schema _ => "FILTERQ_CLI_SCHEMA_ERROR"
  | invalidInput _ => "FILTERQ_CLI_INVALID_INPUT"
  | compileFailed _ => "FILTERQ_COMPILE_FAILED"

/-- What is said of a failure. -/
def message : Failure → String
  | config fault => fault.message
  | input fault => fault.message
  | schema fault => fault.message
  | invalidInput fault => fault.message
  | compileFailed diagnostics => Diagnostic.summary diagnostics

/-- A failure as one line of text. -/
def display (failure : Failure) : String := s!"{failure.code}: {failure.message}"

end Failure

namespace Service

/-- The scope of a request: nothing is in place. -/
def scope (schema : Schema) (blacklist : Blacklist) : Scope := ⟨schema, [], blacklist⟩

/-- The filters of a query text. -/
def compile (text : String) (schema : Schema) (blacklist : Blacklist) : Except Failure Json :=
  match (scope schema blacklist).compile text with
  | .ok filters => .ok (Filter.jsonList filters).sorted
  | .error diagnostics => .error (.compileFailed diagnostics)

/-- The query text of a list of filters. It is compiled again and has to give back the same
filters. -/
def render (text : String) (schema : Schema) (blacklist : Blacklist) : Except Failure String :=
  match Filter.parseList text with
  | .error fault => .error (.invalidInput (.noList fault))
  | .ok filters =>
    let query := Filter.query filters
    match (scope schema blacklist).compile query with
    | .ok compiled =>
      if Filter.allAgree compiled filters then .ok query else .error (.invalidInput .changes)
    | .error diagnostics => .error (.invalidInput (.invalidRows diagnostics))

/-- The suggestions for the last line of a text. -/
def suggest (text : String) (schema : Schema) (blacklist : Blacklist) : Json :=
  .array (((scope schema blacklist).suggest text).map .string)

/-- All that can be filtered. -/
def catalog (schema : Schema) (blacklist : Blacklist) : Json :=
  (scope schema blacklist).catalog.json.sorted

/-- The field and the constraint with which a new filter starts, or null. -/
def defaultFilter (schema : Schema) (blacklist : Blacklist) : Json :=
  match (scope schema blacklist).defaultFilter? with
  | some (field, constraint) => (Catalog.choice field constraint).sorted
  | none => .null

end Service

end FilterLang
