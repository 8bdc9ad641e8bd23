import Mathlib.Data.Finset.Card
import FilterLang.Document.Schema
import FilterLang.Proofs.Json.Refines
import FilterLang.Proofs.Schema.Rules

namespace FilterLang

/-!
# Schema — fields as an ordered map

The fields of a schema come from a document, in which no name may be repeated, and from declarations,
in which a repeated name replaces the type. Either way no two fields have one name, so the first field
that is found is the only one.

* `Schema.listing` — the fields as they are written in a document, whether or not a name is repeated;
  `Schema.listing_of_whole` says that a schema that is read has just these fields.
* `Schema.withFields` — declarations, one after the other; `Schema.names_withFields` and
  `Schema.get?_withFields` say what they make of a schema.
* `Schema.IsMapOf` — a schema is the ordered map of what is written and of what is declared.
* `Schema.isMapOf_withFields` — all that can be made of the empty schema, or of one that is read, is
  such a map.
-/

namespace Schema

variable {schema : Schema}

/-! ### What is written in a document -/

/-- Reads a field after its name, which may be the one of an earlier field. -/
def listedMember (depth : Nat) (done : List (String × FieldType)) (name : String) :
    Json.Reader (List (String × FieldType)) := do
  Json.colon
  pure (done ++ [(name, ← FieldType.reader depth)])

/-- Reads the fields of a schema as they are written. -/
def listedFields (depth : Nat) : Json.Reader (List (String × FieldType)) := do
  let c ← Json.start
  if c = '\x7b' then
    let inside ← Json.deeper depth
    Json.skip
    Json.objectBody (listedMember inside) []
  else Json.unexpected "a map of field name to field type" c

/-- The only member of a schema. -/
def listedRecord : Json.Record (Option (List (String × FieldType))) where
  name := "Schema"
  start := none
  slots := [
    { name := "fields", optional := false, isFilled := (·.isSome)
      fill := fun depth _ => do pure (some (← listedFields depth)) }]

/-- The fields that are written in the document of a schema, in their order. -/
def listing (text : String) : Except Json.Fault (List (String × FieldType)) :=
  Json.whole (fun depth => do Json.required "fields" (← listedRecord.reader depth)) text

/-- A field is read as it is listed, if its name is new. -/
theorem refines_fieldMember (depth : Nat) (done : Schema) (name : String) :
    Json.Refines fields (fieldMember depth done name) (listedMember depth done.fields name) := by
  refine Json.refines_then fun _ => Json.refines_then fun type => ?_
  split
  next => exact Json.refines_of_yields_false (Json.yields_throw _)
  next new => exact Json.refines_pure fields (done.append name type new)

/-- So are all fields. -/
theorem refines_fieldsReader (depth : Nat) :
    Json.Refines fields (fieldsReader depth) (listedFields depth) := by
  refine Json.refines_then fun c => Json.refines_ite ?_ ?_
  · refine Json.refines_then fun inside => Json.refines_then fun _ => ?_
    exact Json.refines_objectBody (refines_fieldMember inside) empty
  · exact Json.refines_of_yields_false (Json.yields_unexpected _ _)

/-- So is the only member of a schema. -/
theorem refines_record : record.Refines (Option.map fields) listedRecord where
  start := rfl
  slots := by
    refine .cons ⟨rfl, rfl, fun done => by cases done <;> rfl, fun depth _ => ?_⟩ .nil
    refine Json.refines_bind (refines_fieldsReader depth) fun schema => ?_
    exact Json.refines_pure _ (some schema)

/-- A schema that is read has the fields that are written. -/
theorem listing_of_whole {text : String} (h : Json.whole reader text = .ok schema) :
    listing text = .ok schema.fields := by
  refine Json.Refines.of_whole (fun depth => ?_) h
  refine Json.refines_bind (refines_record.reader depth) fun read => Json.refines_lift ?_
  cases read with
  | none => nofun
  | some schema =>
    rintro _ ⟨⟩
    rfl

/-! ### Declarations -/

/-- Declares fields, one after the other. -/
def withFields (schema : Schema) (declared : List (String × FieldType)) : Schema :=
  declared.foldl (fun schema field => schema.withField field.1 field.2) schema

/-- Distinct names stay as they are. -/
theorem eraseDups_eq_self {names : List String} (h : names.Nodup) : names.eraseDups = names := by
  induction names with
  | nil => rfl
  | cons name names ih =>
    obtain ⟨new, rest⟩ := List.nodup_cons.1 h
    have kept : names.filter (fun other => !other == name) = names := by
      refine List.filter_eq_self.2 fun other hother => ?_
      have apart : other ≠ name := fun same => new (same ▸ hother)
      simp [apart]
    rw [List.eraseDups_cons, kept, ih rest]

/-- After declarations, each name stands where it occurs first. -/
theorem names_withFields (schema : Schema) (declared : List (String × FieldType)) :
    (schema.withFields declared).names = (schema.names ++ declared.map Prod.fst).eraseDups := by
  induction declared generalizing schema with
  | nil =>
    rw [List.map_nil, List.append_nil]
    exact (eraseDups_eq_self schema.nodup).symm
  | cons field declared ih =>
    obtain ⟨name, type⟩ := field
    refine (ih (schema.withField name type)).trans ?_
    rw [names_withField]
    -- a known name has occurred before, so it is erased where it is declared again
    split
    next known => simp [List.eraseDups_append, List.removeAll, known]
    next => simp

/-- A field that comes first hides all others of its name. -/
theorem lookup_cons_eq (first : String) (type : FieldType) (fields : List (String × FieldType))
    (name : String) :
    List.lookup name ((first, type) :: fields) =
      if name = first then some type else fields.lookup name := by
  rw [List.lookup_cons]
  by_cases same : name = first
  · simp [same]
  · simp [same, beq_false_of_ne same]

/-- After declarations, the last one of a name counts. -/
theorem get?_withFields (schema : Schema) (declared : List (String × FieldType)) (name : String) :
    (schema.withFields declared).get? name =
      (declared.reverse.lookup name).or (schema.get? name) := by
  induction declared generalizing schema with
  | nil => rfl
  | cons field declared ih =>
    obtain ⟨first, type⟩ := field
    -- the list is reversed, so the first declaration is looked up after all others
    have step : (schema.withField first type).get? name =
        (List.lookup name [(first, type)]).or (schema.get? name) := by
      rw [get?_withField, lookup_cons_eq]
      split <;> rfl
    refine (ih (schema.withField first type)).trans ?_
    rw [step, List.reverse_cons, List.lookup_append, Option.or_assoc]

/-- The first field of a name is found. -/
theorem get?_eq_lookup (schema : Schema) (name : String) :
    schema.get? name = schema.fields.lookup name := by
  rw [get?]
  induction schema.fields with
  | nil => rfl
  | cons field fields ih =>
    obtain ⟨first, type⟩ := field
    rw [List.find?_cons, lookup_cons_eq, ← ih]
    by_cases same : name = first
    · simp [same]
    · simp [same, Ne.symm same]

/-! ### The map -/

/-- A schema is the ordered map of fields that are written and of fields that are declared after them:
no two fields have one name, and they stand in the order in which the names occur first. -/
structure IsMapOf (schema : Schema) (written declared : List (String × FieldType)) : Prop where
  distinct : schema.names.Nodup
  names_eq : schema.names = ((written ++ declared).map Prod.fst).eraseDups
  /-- The last declaration of a name counts, or else what is written. -/
  get?_eq : ∀ name, schema.get? name = (declared.reverse.lookup name).or (written.lookup name)
  /-- The fields are the names, each with the type that is found for it. -/
  fields_eq : schema.fields.map (fun field => (field.1, some field.2)) =
    schema.names.map fun name => (name, schema.get? name)
  length_eq : schema.fields.length = ((written ++ declared).map Prod.fst).toFinset.card

/-- Declarations make the map of what is written and of themselves. -/
theorem isMapOf_of_fields (schema : Schema) (declared : List (String × FieldType)) :
    (schema.withFields declared).IsMapOf schema.fields declared where
  distinct := (schema.withFields declared).nodup
  names_eq := by rw [names_withFields, List.map_append, names]
  get?_eq name := by rw [get?_withFields, get?_eq_lookup schema]
  fields_eq := by
    rw [names, List.map_map]
    refine List.map_congr_left fun field hfield => ?_
    rw [Function.comp_apply, get?_of_mem_fields hfield]
  length_eq := by
    -- the names are listed once each, so they are as many as the set of them has elements
    have same : (schema.withFields declared).names.toFinset =
        ((schema.fields ++ declared).map Prod.fst).toFinset := by
      ext name
      rw [names_withFields, List.mem_toFinset, List.mem_eraseDups, List.mem_toFinset,
        List.map_append, names]
    have distinct : (schema.withFields declared).names.Nodup := (schema.withFields declared).nodup
    rw [← same, List.toFinset_card_of_nodup distinct, names, List.length_map]

/-- **An ordered map.** Whatever fields are declared, one after the other, from the empty schema or from
one that is read from a document: no two fields have one name; they stand in the order in which the
names occur first, those of the document before others; and what is found for a name is the type of its
last declaration, or else the one in the document. The fields, their names and what is found are the
same map, and there are as many fields as names that occur. -/
theorem isMapOf_withFields (declared : List (String × FieldType)) :
    (empty.withFields declared).IsMapOf [] declared ∧
    ∀ text schema, Json.whole reader text = .ok schema →
      ∃ written, listing text = .ok written ∧ (written.map Prod.fst).Nodup ∧
        (schema.withFields declared).IsMapOf written declared :=
  ⟨isMapOf_of_fields empty declared, fun _ schema read =>
    ⟨schema.fields, listing_of_whole read, schema.nodup, isMapOf_of_fields schema declared⟩⟩

/-- Two fields are written, one of them is declared again, and a new one is declared twice. -/
theorem isMapOf_withFields_again :
    let text := "\x7b\"fields\":\x7b\"zeta\":\x7b\"type\":\"String\"\x7d,\"alpha\":[\"Date\"]\x7d\x7d"
    let written : List (String × FieldType) := [("zeta", .of .string), ("alpha", .of .date)]
    let declared : List (String × FieldType) :=
      [("mid", .of .file), ("alpha", .of .number), ("mid", .of .boolean)]
    let schema : Schema := ⟨written, by decide⟩
    Json.whole reader text = .ok schema ∧ listing text = .ok written ∧
      (schema.withFields declared).IsMapOf written declared ∧
      (schema.withFields declared).fields =
        [("zeta", .of .string), ("alpha", .of .number), ("mid", .of .boolean)] ∧
      (empty.withFields declared).IsMapOf [] declared := by
  intro text written declared schema
  have read : Json.whole reader text = .ok schema := toOption_eq_some_iff.1 (by decide +kernel)
  have listed : listing text = .ok written := toOption_eq_some_iff.1 (by decide +kernel)
  obtain ⟨fresh, loaded⟩ := isMapOf_withFields declared
  obtain ⟨written', listed', -, map⟩ := loaded text schema read
  cases listed.symm.trans listed'
  exact ⟨read, listed, map, rfl, fresh⟩

-- A document that repeats a name is listed, and no schema is read from it.
example :
    let text := "\x7b\"fields\":\x7b\"a\":[\"Date\"],\"a\":[\"File\"]\x7d\x7d"
    (listing text).toOption = some [("a", .of .date), ("a", .of .file)] ∧
      (match Json.whole reader text with
        | .ok _ => none
        | .error fault => some fault.message) = some "duplicate field 'a'" := by
  decide +kernel

end Schema

end FilterLang
