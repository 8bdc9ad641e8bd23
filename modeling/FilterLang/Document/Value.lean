import FilterLang.Json.Reader
import FilterLang.Instant.Rfc3339
import FilterLang.Value

namespace FilterLang

/-!
# Document — values as JSON

Truth values, numbers and texts are themselves. A date is `{"__type":"Date","iso":…}` and a
reference `{"__type":"Pointer","className":…,"objectId":…}`.

* `Value.json` — the document of a value.
* `Value.ofJson` — the value of a document, or why there is none.
* `Value.reader` — reads a value.
-/

namespace Value

/-- The document of a value. -/
def json : Value → Json
  | bool b => .bool b
  | number n => .ofDouble n
  | text s => .string s
  | date i => .object [("__type", .string "Date"), ("iso", .string (String.ofList i.iso))]
  | pointer targetClass objectId =>
    .object [("__type", .string "Pointer"), ("className", .string targetClass),
      ("objectId", .string objectId)]

/-- Why a document is no value. -/
inductive Misfit where
  /-- A date without a text for its instant. -/
  | noIso
  | badIso (iso : String) (fault : Instant.Fault)
  /-- A reference without its class or its object. -/
  | incompletePointer
  | unknownType (name : String)
  /-- An object that does not say what it is. -/
  | noType
  /-- Null or an array. -/
  | notAValue
deriving Repr

/-- What is said of a document that is no value. -/
def Misfit.message : Misfit → String
  | noIso => "Date value is missing 'iso'"
  | badIso iso fault => s!"Invalid iso date '{iso}': {fault.message}"
  | incompletePointer => "Pointer value needs 'className' and 'objectId'"
  | unknownType name => s!"Unsupported __type '{name}'"
  | noType => "Object values must carry a __type tag"
  | notAValue => "compareTo must be a boolean, number, string, Date or Pointer"

/-- The text of a member, if it is a string. -/
def textMember? (members : List (String × Json)) (name : String) : Option String :=
  match Json.member? members name with
  | some (.string s) => some s
  | _ => none

/-- The value of an object. -/
def ofMembers (members : List (String × Json)) : Except Misfit Value :=
  match textMember? members "__type" with
  | none => .error .noType
  | some "Date" =>
    match textMember? members "iso" with
    | none => .error .noIso
    | some iso =>
      match Instant.ofRfc3339? iso.toList with
      | .ok i => .ok (.date i.truncated)
      | .error fault => .error (.badIso iso fault)
  | some "Pointer" =>
    match textMember? members "className", textMember? members "objectId" with
    | some targetClass, some objectId => .ok (.pointer targetClass objectId)
    | _, _ => .error .incompletePointer
  | some other => .error (.unknownType other)

/-- The value of a document. An integer becomes the nearest double. -/
def ofJson : Json → Except Misfit Value
  | .bool b => .ok (.bool b)
  | .integer n => .ok (.number ⟨n < 0, (Double.ofNat n.natAbs).magnitude⟩)
  | .real d => .ok (.number d)
  | .string s => .ok (.text s)
  | .object members => ofMembers members
  | .null | .array _ => .error .notAValue

/-- Reads a value: first any document, then what it means. -/
def reader (depth : Nat) : Json.Reader Value := do
  match ofJson (← Json.value depth) with
  | .ok v => pure v
  | .error misfit => throw (.refused misfit.message)

/-- The value that a text holds. -/
def parse (text : String) : Except Json.Fault Value := Json.whole reader text

end Value

end FilterLang
