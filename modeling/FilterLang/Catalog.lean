import FilterLang.Schema
import FilterLang.Filter

namespace FilterLang

/-!
# Catalog — what can still be filtered

* `Catalog` — fields in the order of the schema, each with the constraints that are left for it.
* `Catalog.of` — the catalog of a schema without the fields that are in use and without banned
  constraints. A field with no constraint left is not listed.
* `Scope` — a schema, the filters in place and a blacklist: all that decides what a row may say.
-/

/-- Fields and the constraints that can be used with them. -/
structure Catalog where
  entries : List (String × List Constraint)
deriving DecidableEq, Repr

namespace Catalog

/-- The constraints that are left for a field of a type; nothing, if the field is in use or no
constraint is left. -/
def remaining? (used : List String) (blacklist : Blacklist) (name : String) (type : FieldType) :
    Option (List Constraint) :=
  if name ∈ used ∨ blacklist.permitted type.kind = [] then none
  else some (blacklist.permitted type.kind)

/-- The catalog of a schema, without the fields in `used`. -/
def of (schema : Schema) (used : List String) (blacklist : Blacklist) : Catalog where
  entries := schema.fields.filterMap fun (name, type) =>
    (remaining? used blacklist name type).map (name, ·)

/-- The constraints of a field, if the field is listed. -/
def get? (catalog : Catalog) (field : String) : Option (List Constraint) :=
  (catalog.entries.find? (·.1 = field)).map Prod.snd

/-- Whether a constraint is listed for a field. -/
def allows (catalog : Catalog) (field : String) (constraint : Constraint) : Bool :=
  match catalog.get? field with
  | some constraints => constraint ∈ constraints
  | none => false

/-- The listed fields. -/
def fields (catalog : Catalog) : List String := catalog.entries.map Prod.fst

/-- The first field with the first of its constraints. -/
def first? (catalog : Catalog) : Option (String × Constraint) :=
  match catalog.entries with
  | (field, constraint :: _) :: _ => some (field, constraint)
  | _ => none

/-! ### Look-up -/

/-- The entry of a field, found among those of all fields, is made from the type of this field. -/
theorem find?_entries (used : List String) (blacklist : Blacklist) (field : String)
    (fields : List (String × FieldType)) (h : (fields.map Prod.fst).Nodup) :
    ((fields.filterMap fun (name, type) =>
        (remaining? used blacklist name type).map (name, ·)).find? (·.1 = field)).map Prod.snd =
      ((fields.find? (·.1 = field)).map Prod.snd).bind (remaining? used blacklist field) := by
  induction fields with
  | nil => rfl
  | cons entry fields ih =>
    obtain ⟨name, type⟩ := entry
    rw [List.map_cons, List.nodup_cons] at h
    specialize ih h.2
    by_cases hn : name = field
    · subst hn
      cases hl : remaining? used blacklist name type with
      | some constraints => simp [hl]
      | none =>
        -- no other field of this name can be listed in its stead
        have : fields.find? (·.1 = name) = none := by
          rw [List.find?_eq_none]
          intro other hmem heq
          exact h.1 (List.mem_map.2 ⟨other, hmem, of_decide_eq_true heq⟩)
        simp_all
    · cases hl : remaining? used blacklist name type <;> simp_all

/-- What is listed for a field depends on the field's own type only. -/
theorem get?_of (schema : Schema) (used : List String) (blacklist : Blacklist) (field : String) :
    (Catalog.of schema used blacklist).get? field =
      (schema.get? field).bind (remaining? used blacklist field) :=
  find?_entries used blacklist field schema.fields schema.nodup

end Catalog

/-- What a row of query text is judged by. -/
structure Scope where
  schema : Schema
  /-- The filters that are in place already. -/
  inPlace : List Filter
  blacklist : Blacklist

namespace Scope

/-- What can still be filtered. -/
def catalog (scope : Scope) : Catalog :=
  .of scope.schema (Filter.fields scope.inPlace) scope.blacklist

/-- The field and the constraint with which a new filter starts. -/
def defaultFilter? (scope : Scope) : Option (String × Constraint) := scope.catalog.first?

end Scope

end FilterLang
