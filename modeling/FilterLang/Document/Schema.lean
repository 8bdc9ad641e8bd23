import FilterLang.Json.Reader
import FilterLang.Schema

namespace FilterLang

/-!
# Document — schemas as JSON

* `Schema.json` — `{"fields":{name:{"type":…,"targetClass":…},…}}`, the fields in order.
* `Schema.parse` — the schema that a text holds, if it keeps the structural rules.
-/

/-- The document of a field's type; the target class only appears if there is one. -/
def FieldType.json (type : FieldType) : Json :=
  .ofMembers [("type", some (.string type.kind.name)),
    ("targetClass", type.targetClass.map .string)]

namespace FieldType

/-- What has been read of a field's type. A target class of null is the same as none. -/
structure Draft where
  kind : Option FieldKind
  targetClass : Option (Option String)

/-- The members of a field's type. -/
def record : Json.Record Draft where
  name := "FieldType"
  start := ⟨none, none⟩
  slots := [
    { name := "type", optional := false, isFilled := (·.kind.isSome)
      fill := fun depth draft => do
        let names := FieldKind.all.map fun kind => (kind.name, kind)
        pure { draft with kind := some (← Json.expectVariant depth names) } },
    { name := "targetClass", optional := true, isFilled := (·.targetClass.isSome)
      fill := fun _ draft => do
        pure { draft with targetClass := some (← Json.expectString? "a string") } }]

/-- The type that a draft makes. -/
def Draft.finish (draft : Draft) : Except Json.Fault FieldType := do
  let kind ← Json.required "type" draft.kind
  pure ⟨kind, draft.targetClass.join⟩

/-- Reads a field's type. -/
def reader (depth : Nat) : Json.Reader FieldType := do
  (← record.reader depth).finish

end FieldType

namespace Schema

/-- The document of a schema. -/
def json (schema : Schema) : Json :=
  .object [("fields", .object (schema.fields.map fun (name, type) => (name, type.json)))]

/-- Reads a field after its name, which no earlier field may have. -/
def fieldMember (depth : Nat) (schema : Schema) (name : String) : Json.Reader Schema := do
  Json.colon
  let type ← FieldType.reader depth
  if h : name ∈ schema.names then throw (.refused s!"duplicate field '{name}'")
  else pure (schema.append name type h)

/-- Reads the fields of a schema. -/
def fieldsReader (depth : Nat) : Json.Reader Schema := do
  let c ← Json.start
  if c = '\x7b' then
    let inside ← Json.deeper depth
    Json.skip
    Json.objectBody (fieldMember inside) empty
  else Json.unexpected "a map of field name to field type" c

/-- The only member of a schema. -/
def record : Json.Record (Option Schema) where
  name := "Schema"
  start := none
  slots := [
    { name := "fields", optional := false, isFilled := (·.isSome)
      fill := fun depth _ => do pure (some (← fieldsReader depth)) }]

/-- Reads a schema. -/
def reader (depth : Nat) : Json.Reader Schema := do
  Json.required "fields" (← record.reader depth)

/-- Why a text holds no usable schema. -/
inductive Defect where
  /-- It is no document of a schema. -/
  | unreadable (fault : Json.Fault)
  /-- Its schema breaks a structural rule. -/
  | flawed (flaw : Flaw)
deriving Repr

/-- What is said of a defect. -/
def Defect.message : Defect → String
  | unreadable fault => s!"Invalid JSON: {fault.message}"
  | flawed flaw => flaw.message

/-- The schema that a text holds. -/
def parse (text : String) : Except Defect Schema :=
  match Json.whole reader text with
  | .error fault => .error (.unreadable fault)
  | .ok schema =>
    match schema.validate with
    | some flaw => .error (.flawed flaw)
    | none => .ok schema

end Schema

end FilterLang
