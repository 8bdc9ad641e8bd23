import FilterLang.Proofs.Catalog.Rows
import FilterLang.Proofs.Query.Dependence

namespace FilterLang

/-!
# Catalog — one more field in use

A field that is in use is not listed, and all other entries are as they were, in the same order.

* `Catalog.mem_entries_iff`, `Catalog.fields_sublist` — each listed field has one entry, and the fields
  are in the order of the schema.
* `Catalog.of_congr` — of the fields in use, it only counts which they are.
* `Catalog.without` — a catalog without the entry of a field; `get?_without`, `fields_without` and
  `without_eq_self` say what is left.
* `Catalog.of_append_singleton` — it is the catalog once this field is in use.
* `Catalog.contains_of_mem_fields`, `Catalog.exists_mem_of_get?` — listed fields are declared, and some
  constraint is left for each of them.
-/

namespace Catalog

variable {schema : Schema} {used used' : List String} {blacklist : Blacklist}

/-! ### Entries -/

/-- An entry is what is found for its field. -/
theorem mem_entries_iff {field : String} {constraints : List Constraint} :
    (field, constraints) ∈ (Catalog.of schema used blacklist).entries ↔
      (Catalog.of schema used blacklist).get? field = some constraints := by
  refine ⟨fun entry => (get?_of_mem_entries entry).2, fun found => ?_⟩
  obtain ⟨⟨name, constraints⟩, first, rfl⟩ := Option.map_eq_some_iff.1 found
  have same := List.find?_some first
  obtain rfl : name = field := of_decide_eq_true same
  exact List.mem_of_find?_eq_some first

/-- The listed fields are declared ones, in the order of the schema. -/
theorem fields_sublist : (Catalog.of schema used blacklist).fields.Sublist schema.names := by
  unfold fields of Schema.names
  simp only
  induction schema.fields with
  | nil => exact .slnil
  | cons field declared ih =>
    obtain ⟨name, type⟩ := field
    cases listed : remaining? used blacklist name type with
    | none => simpa [listed] using ih.cons name
    | some constraints => simpa [listed] using ih

theorem nodup_fields : (Catalog.of schema used blacklist).fields.Nodup :=
  fields_sublist.nodup schema.nodup

/-- Some constraint is left in each entry. -/
theorem ne_nil_of_mem_entries {entry : String × List Constraint}
    (h : entry ∈ (Catalog.of schema used blacklist).entries) : entry.2 ≠ [] := by
  obtain ⟨⟨name, type⟩, -, listed⟩ := List.mem_filterMap.1 h
  obtain ⟨constraints, left, rfl⟩ := Option.map_eq_some_iff.1 listed
  unfold remaining? at left
  split at left
  · cases left
  next free => exact Option.some.inj left ▸ (not_or.1 free).2

/-- Fields may be in use in any order and more than once. -/
theorem of_congr (h : ∀ name, name ∈ used ↔ name ∈ used') :
    Catalog.of schema used blacklist = Catalog.of schema used' blacklist := by
  unfold of
  congr 2
  funext ⟨name, type⟩
  exact congrArg (Option.map (name, ·)) (remaining?_congr (h name) blacklist type)

/-! ### One more field -/

/-- A catalog without the entry of a field. -/
def without (catalog : Catalog) (field : String) : Catalog where
  entries := catalog.entries.filter (·.1 ≠ field)

/-- Without a field, the other fields are found as before. -/
theorem get?_without (catalog : Catalog) (field name : String) :
    (catalog.without field).get? name = if name = field then none else catalog.get? name := by
  unfold get? without
  rw [List.find?_filter]
  split
  next same =>
    subst same
    rw [List.find?_eq_none.2 (by simp)]
    rfl
  next other =>
    congr 2
    funext entry
    by_cases named : entry.1 = name <;> simp [named, other]

/-- Without a field, the other fields stay in their order. -/
@[simp] theorem fields_without (catalog : Catalog) (field : String) :
    (catalog.without field).fields = catalog.fields.filter (· ≠ field) := by
  rw [fields, fields, List.filter_map]
  rfl

/-- A field that is not listed can be left out without a change. -/
theorem without_eq_self {catalog : Catalog} {field : String} (h : field ∉ catalog.fields) :
    catalog.without field = catalog := by
  obtain ⟨entries⟩ := catalog
  rw [without, Catalog.mk.injEq, List.filter_eq_self]
  intro entry listed
  exact decide_eq_true fun same => h (same ▸ List.mem_map_of_mem listed)

/-- One more field in use has no constraints left, and this changes nothing for the others. -/
theorem remaining?_append_singleton (used : List String) (blacklist : Blacklist) (field name : String)
    (type : FieldType) :
    remaining? (used ++ [field]) blacklist name type =
      if name = field then none else remaining? used blacklist name type := by
  split
  next same => rw [remaining?, if_pos (.inl (by simp [same]))]
  next other => exact remaining?_congr (by simp [other]) blacklist type

/-- The catalog once one more field is in use. -/
theorem of_append_singleton (schema : Schema) (used : List String) (blacklist : Blacklist)
    (field : String) :
    Catalog.of schema (used ++ [field]) blacklist =
      (Catalog.of schema used blacklist).without field := by
  rw [of, of, without, Catalog.mk.injEq, List.filter_filterMap]
  apply List.filterMap_congr
  rintro ⟨name, type⟩ -
  simp only [remaining?_append_singleton]
  cases remaining? used blacklist name type with
  | none => simp
  | some constraints => by_cases same : name = field <;> simp [same, Option.filter]

/-- Listed fields are declared. -/
theorem contains_of_mem_fields {field : String}
    (h : field ∈ (Catalog.of schema used blacklist).fields) :
    schema.contains field = true := by
  obtain ⟨⟨name, constraints⟩, entry, rfl⟩ := List.mem_map.1 h
  obtain ⟨⟨type, declared⟩, -⟩ := get?_of_mem_entries entry
  rw [Schema.contains, declared]
  rfl

/-- Some constraint is left for a listed field. -/
theorem exists_mem_of_get? {field : String} {constraints : List Constraint}
    (h : (Catalog.of schema used blacklist).get? field = some constraints) :
    ∃ constraint, constraint ∈ constraints :=
  List.exists_mem_of_ne_nil _ (ne_nil_of_mem_entries (mem_entries_iff.2 h))

end Catalog

end FilterLang
