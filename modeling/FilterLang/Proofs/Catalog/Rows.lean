import FilterLang.Proofs.Query.Pieces
import FilterLang.Proofs.Schema.Rules

namespace FilterLang

/-!
# Catalog — what is listed is what is accepted

The catalog is computed for the fields that are left, and a row is judged by a catalog of its own.
Both say the same: a field of a valid schema is one token, so that a row which is written out is
read with the field, the constraint and the literal that were written, blanks and all.

* `Catalog.get?_of_mem_entries` — an entry is what is found for its field, which is declared.
* `Scope.offers_iff_allows` — a filter can be added if the catalog lists its constraint for its field.
* `Scope.compile_row_eq_ok_iff_allows` — the filters of a row that is written out.
* `Scope.compile_row_iff_allows` — a row has a filter if and only if the catalog lists its constraint
  and its literal has a value.
-/

namespace Catalog

/-- An entry is what is found for its field, and this field is declared. -/
theorem get?_of_mem_entries {schema : Schema} {used : List String} {blacklist : Blacklist}
    {field : String} {constraints : List Constraint}
    (h : (field, constraints) ∈ (Catalog.of schema used blacklist).entries) :
    (∃ type, schema.get? field = some type) ∧
      (Catalog.of schema used blacklist).get? field = some constraints := by
  obtain ⟨⟨name, type⟩, declared, listed⟩ := List.mem_filterMap.1 h
  obtain ⟨constraints', left, same⟩ := Option.map_eq_some_iff.1 listed
  obtain ⟨rfl, rfl⟩ := Prod.mk.inj same
  have found := Schema.get?_of_mem_fields declared
  rw [get?_of, found]
  exact ⟨⟨type, rfl⟩, left⟩

/-- A catalog allows the constraints that it lists for a field. -/
theorem allows_of_get? {catalog : Catalog} {field : String} {constraints : List Constraint}
    (h : catalog.get? field = some constraints) (constraint : Constraint) :
    catalog.allows field constraint = true ↔ constraint ∈ constraints := by
  rw [allows, h]
  exact decide_eq_true_iff

/-- The same for any field, as one that is not listed has no constraint. -/
theorem allows_iff (catalog : Catalog) (field : String) (constraint : Constraint) :
    catalog.allows field constraint = true ↔ constraint ∈ (catalog.get? field).getD [] := by
  unfold allows
  cases catalog.get? field <;> simp

/-- For a declared field that is not in use, all constraints that apply and are not banned are left. -/
theorem getD_get?_of {schema : Schema} {field : String} {type : FieldType}
    (declared : schema.get? field = some type) (used : List String) (blacklist : Blacklist) :
    ((Catalog.of schema used blacklist).get? field).getD [] =
      if field ∈ used then [] else blacklist.permitted type.kind := by
  rw [get?_of, declared, Option.bind_some, remaining?]
  by_cases taken : field ∈ used <;> by_cases none : blacklist.permitted type.kind = [] <;>
    simp [taken, none]

end Catalog

namespace Scope

variable {scope : Scope}

/-- Before a row has been accepted, a row is judged by the catalog of the scope. -/
@[simp] theorem catalogAfter_nil (scope : Scope) : scope.catalogAfter [] = scope.catalog := by
  rw [catalogAfter, catalog, List.map_nil, List.append_nil]

/-- A filter on a declared field can be added if the catalog lists its constraint for the field. -/
theorem offers_iff_allows {type : FieldType} {f : Filter}
    (declared : scope.schema.get? f.field = some type) :
    scope.Offers type f ↔ scope.catalog.allows f.field f.constraint = true := by
  rw [← catalogAfter_nil, allows_catalogAfter declared, Blacklist.mem_permitted]
  constructor
  · rintro ⟨-, unused, applies, allowed⟩
    exact ⟨unused, List.not_mem_nil, applies, allowed⟩
  · rintro ⟨unused, -, applies, allowed⟩
    exact ⟨declared, unused, applies, allowed⟩

/-- The filters of a row on a declared field: one, if the catalog lists the constraint and the
literal has a value. -/
theorem compile_row_eq_ok_iff_allows (valid : scope.schema.IsValid) {field : String}
    {type : FieldType} (declared : scope.schema.get? field = some type) (constraint : Constraint)
    {literal : String} (feed : '\n' ∉ literal.toList) {filters : List Filter} :
    scope.compile (field ++ " " ++ constraint.spelling ++ " " ++ literal) = .ok filters ↔
      scope.catalog.allows field constraint = true ∧
        ∃ value, filters = [⟨field, constraint, value⟩] ∧
          Literal.decode type literal = .ok value := by
  have rules := valid.keepsRules declared
  rw [compile_row_eq_ok_iff (rules.not_mem rfl) (rules.not_mem rfl) feed]
  constructor
  · rintro ⟨type', value, rfl, offers, decoded⟩
    obtain rfl : type = type' := Option.some.inj (declared.symm.trans offers.declared)
    exact ⟨(offers_iff_allows declared).1 offers, value, rfl, decoded⟩
  · rintro ⟨listed, value, rfl, decoded⟩
    exact ⟨type, value, rfl, (offers_iff_allows declared).2 listed, decoded⟩

/-- **The catalog and the rows.** With a valid schema, a row on a declared field has a filter with its
constraint and a value if and only if the catalog lists this constraint for the field and the literal
has this value. So what the catalog lists can be used, with a truth value at least, and what it does
not list cannot be used, whatever the literal is. -/
theorem compile_row_iff_allows (valid : scope.schema.IsValid) :
    (∀ field type constraint literal value, scope.schema.get? field = some type →
      '\n' ∉ literal.toList →
        (scope.compile (field ++ " " ++ constraint.spelling ++ " " ++ literal) =
            .ok [⟨field, constraint, value⟩] ↔
          scope.catalog.allows field constraint = true ∧
            Literal.decode type literal = .ok value)) ∧
    (∀ field constraints, (field, constraints) ∈ scope.catalog.entries →
      ∀ constraint ∈ constraints,
        scope.compile (field ++ " " ++ constraint.spelling ++ " " ++ "true") =
          .ok [⟨field, constraint, .bool true⟩]) ∧
    ∀ field type constraint literal, scope.schema.get? field = some type →
      '\n' ∉ literal.toList → scope.catalog.allows field constraint = false →
        ∀ filters, scope.compile (field ++ " " ++ constraint.spelling ++ " " ++ literal) ≠
          .ok filters := by
  refine ⟨?_, ?_, ?_⟩
  · -- the compiled filter fixes the value, which is the one the literal decodes to
    intro field type constraint literal value declared feed
    rw [compile_row_eq_ok_iff_allows valid declared constraint feed]
    refine and_congr_right fun _ => ⟨?_, fun decoded => ⟨value, rfl, decoded⟩⟩
    rintro ⟨_, same, decoded⟩
    cases same
    exact decoded
  · -- every kind decodes `true`, so the listed pair is all that its row needs
    intro field constraints entry constraint listed
    obtain ⟨⟨type, declared⟩, found⟩ := Catalog.get?_of_mem_entries entry
    have allows := (Catalog.allows_of_get? found constraint).2 listed
    rw [compile_row_eq_ok_iff_allows valid declared constraint (by decide)]
    exact ⟨allows, .bool true, rfl, rfl⟩
  · intro field type constraint literal declared feed unlisted filters compiled
    rw [compile_row_eq_ok_iff_allows valid declared constraint feed, unlisted] at compiled
    exact Bool.false_ne_true compiled.1

/-- A literal with blanks around it, a carriage return after a literal, a field on which nothing is
banned, and a constraint that is banned. -/
theorem compile_row_iff_allows_blanks :
    let schema : Schema :=
      ⟨[("name", .of .string), ("tags", .of .array), ("owner", ⟨.pointer, some "_User"⟩)], by decide⟩
    let scope : Scope := ⟨schema, [⟨"name", .present, .bool true⟩], .builtin⟩
    let row (field : String) (constraint : Constraint) (literal : String) : String :=
      field ++ " " ++ constraint.spelling ++ " " ++ literal
    scope.schema.IsValid ∧ scope.schema.get? "tags" = some (.of .array) ∧
      '\n' ∉ "  a  b ".toList ∧
      scope.compile (row "tags" .contains "  a  b ") = .ok [⟨"tags", .contains, .text "  a  b "⟩] ∧
      '\n' ∉ "a\r".toList ∧
      scope.compile (row "tags" .contains "a\r") ≠ .ok [⟨"tags", .contains, .text "a\r"⟩] ∧
      ("owner", Constraint.forKind .pointer) ∈ scope.catalog.entries ∧
      scope.compile (row "owner" .notEqualTo "true") = .ok [⟨"owner", .notEqualTo, .bool true⟩] ∧
      scope.catalog.allows "tags" .containsAll = false ∧
      ∀ filters, scope.compile (row "tags" .containsAll "a\r") ≠ .ok filters := by
  intro schema scope row
  have valid : scope.schema.IsValid := by decide
  have declared : scope.schema.get? "tags" = some (.of .array) := by decide
  have blanks : '\n' ∉ "  a  b ".toList := by decide
  have ret : '\n' ∉ "a\r".toList := by decide
  have entry : ("owner", Constraint.forKind .pointer) ∈ scope.catalog.entries := by decide
  have banned : scope.catalog.allows "tags" .containsAll = false := by decide
  obtain ⟨rows, listed, unlisted⟩ := compile_row_iff_allows valid
  refine ⟨valid, declared, blanks, ?_, ret, ?_, entry, ?_, banned, ?_⟩
  · exact (rows "tags" _ .contains _ _ declared blanks).2 ⟨by decide, by decide⟩
  · -- the return is refused by the decoder, although the pair is listed
    intro compiled
    have decoded := ((rows "tags" _ .contains _ _ declared ret).1 compiled).2
    revert decoded
    decide
  · exact listed "owner" _ entry .notEqualTo (by decide)
  · exact unlisted "tags" _ .containsAll _ declared ret banned

end Scope

end FilterLang
