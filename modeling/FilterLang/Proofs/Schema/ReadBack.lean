import FilterLang.Service
import FilterLang.Proofs.Json.Reads

namespace FilterLang

/-!
# Schema — schemas that are written and read

A schema is written with its fields in order and read field by field, so that a name is checked
against the names before it. These are all other, and each name and target class is a string, which
is read as it was. So only the structural rules can keep a schema from coming back.

* `FieldType.reads_reader` — the type of a field is read as it was.
* `Schema.fills_fields` — fields are read into the schema that they belong to.
* `Schema.whole_render` — a schema is read as it was, valid or not.
* `Schema.load_render` — it comes back if it is valid, and is refused with its flaw if it is not.
-/

namespace FieldType

/-- The document of a type has a member for the kind, and one for the target class if there is one. -/
theorem json_eq (type : FieldType) :
    type.json = .object (("type", .string type.kind.name) ::
      (type.targetClass.map fun target => ("targetClass", Json.string target)).toList) := by
  obtain ⟨kind, targetClass⟩ := type
  cases targetClass <;> rfl

/-- A kind is read by its name. -/
theorem reads_expectVariant (kind : FieldKind) (depth : Nat) :
    Json.Reads (Json.expectVariant depth (FieldKind.all.map fun kind => (kind.name, kind)))
      (Json.string kind.name).text (.ok kind) := by
  rw [Json.text]
  exact Json.reads_expectVariant (by cases kind <;> rfl) depth

/-- The kind is read first, and then the target class if there is one. -/
theorem fills_record (type : FieldType) (depth : Nat) :
    Json.Fills (record.member depth) record.start
      (("type", .string type.kind.name) ::
        (type.targetClass.map fun target => ("targetClass", Json.string target)).toList)
      (.ok ⟨some type.kind, type.targetClass.map some⟩) := by
  obtain ⟨kind, targetClass⟩ := type
  have first : Json.Reads (record.member depth record.start "type")
      (':' :: (Json.string kind.name).text) (.ok ⟨some kind, none⟩) := by
    apply Json.Record.reads_member rfl rfl
    exact (reads_expectVariant kind depth).then_pure fun kind => (⟨some kind, none⟩ : Draft)
  -- the class is written only where there is one
  cases targetClass with
  | none => exact .cons first (.nil _)
  | some target =>
    have second : Json.Reads (record.member depth ⟨some kind, none⟩ "targetClass")
        (':' :: (Json.string target).text) (.ok ⟨some kind, some (some target)⟩) := by
      apply Json.Record.reads_member rfl rfl
      exact (Json.reads_expectString? "a string" target).then_pure fun target =>
        (⟨some kind, some target⟩ : Draft)
    exact .cons first (.cons second (.nil _))

/-- The type of a field is read as it was. -/
theorem reads_reader (type : FieldType) (depth : Nat) :
    Json.Reads (reader (depth + 1)) type.json.text (.ok type) := by
  have read := Json.Record.reads_reader (type.fills_record depth)
  rw [← json_eq] at read
  have whole : (.ok type : Except Json.Fault FieldType) =
      .ok ⟨some type.kind, type.targetClass.map some⟩ >>= Draft.finish := by
    obtain ⟨kind, targetClass⟩ := type
    cases targetClass <;> rfl
  rw [whole]
  apply read.bind
  intro draft rest
  cases draft.finish <;> rfl

end FieldType

namespace Schema

/-- A field is added to the schema that has been read, if its name is new. -/
theorem reads_fieldMember {done : Schema} {name : String} (new : name ∉ done.names)
    (type : FieldType) (depth : Nat) :
    Json.Reads (fieldMember (depth + 1) done name) (':' :: type.json.text)
      (.ok (done.append name type new)) := by
  intro rest ends
  rw [List.cons_append, fieldMember, Json.bind_of_ok (Json.colon_cons _),
    Json.bind_of_ok (type.reads_reader depth rest ends), dif_neg new]
  rfl

/-- Fields are read into the schema that they belong to, after the fields before them. -/
theorem fills_fields {whole done : Schema} {fields : List (String × FieldType)}
    (h : whole.fields = done.fields ++ fields) (depth : Nat) :
    Json.Fills (fieldMember (depth + 1)) done (fields.map fun (name, type) => (name, type.json))
      (.ok whole) := by
  induction fields generalizing done with
  | nil =>
    obtain rfl : done = whole := by
      cases done
      cases whole
      simpa using h.symm
    exact .nil done
  | cons field fields ih =>
    obtain ⟨name, type⟩ := field
    -- no field before this one has its name, as the names of the whole are distinct
    have new : name ∉ done.names := by
      intro earlier
      have distinct := whole.nodup
      rw [h, List.map_append, List.nodup_append] at distinct
      exact distinct.2.2 name earlier name List.mem_cons_self rfl
    refine .cons (reads_fieldMember new type depth) (ih ?_)
    rw [h, append, List.append_assoc, List.singleton_append]

/-- The fields of a schema are read as they were. -/
theorem reads_fieldsReader (schema : Schema) (depth : Nat) :
    Json.Reads (fieldsReader (depth + 2))
      (Json.object (schema.fields.map fun (name, type) => (name, type.json))).text (.ok schema) := by
  intro rest _
  rw [Json.object_append, fieldsReader, Json.bind_of_ok (Json.start_cons (by decide) _), if_pos rfl,
    Json.bind_of_ok (Json.deeper_succ (depth + 1) _), Json.bind_of_ok (Json.skip_cons _ _)]
  have fills := @fills_fields schema empty schema.fields rfl depth
  exact fills.reads_objectBody rest

/-- A schema is read as it was, at any depth that is left. -/
theorem reads_reader (schema : Schema) (depth : Nat) :
    Json.Reads (reader (depth + 3)) schema.json.text (.ok schema) := by
  have slot : Json.Reads (record.member (depth + 2) none "fields")
      (':' :: (Json.object (schema.fields.map fun (name, type) => (name, type.json))).text)
      (.ok (some schema)) := by
    apply Json.Record.reads_member rfl rfl
    exact (schema.reads_fieldsReader depth).then_pure some
  have fills : Json.Fills (record.member (depth + 2)) record.start
      [("fields", .object (schema.fields.map fun (name, type) => (name, type.json)))]
      (.ok (some schema)) := .cons slot (.nil _)
  -- the document is finished by asking for the slot, which is filled
  have whole : (.ok schema : Except Json.Fault Schema) =
      .ok (some schema) >>= Json.required "fields" := rfl
  rw [whole]
  apply (Json.Record.reads_reader fills).bind
  intro read rest
  cases read <;> rfl

/-- A schema that is written is read as it was, whether or not it is valid. -/
theorem whole_render (schema : Schema) : Json.whole reader schema.json.render = .ok schema :=
  Json.whole_eq_of_reads (schema.reads_reader 124)

/-- **Writing and loading.** A schema that is written as JSON is loaded as it was, with its fields in
their order, if it is valid; otherwise it is refused as malformed, and the reason is its flaw. -/
theorem load_render (schema : Schema) (source : String) :
    load source schema.json.render =
      match schema.validate with
      | none => .ok schema
      | some flaw => .error (.malformed source (.flawed flaw)) := by
  rw [load, parse, whole_render]
  simp only
  cases schema.validate <;> rfl

-- A name with a quote and a control character is read as it was, and refused for the blank in it.
example :
    (match load "fields.json" (empty.withField "\"\t" ⟨.relation, some "\\\x00"⟩).json.render with
      | .ok _ => none
      | .error fault => some fault.message) =
      some "Malformed schema 'fields.json': Field name '\"\t' contains whitespace" := by
  decide +kernel

end Schema

end FilterLang
