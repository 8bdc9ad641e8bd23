import FilterLang.Editor
import FilterLang.Proofs.Catalog.Used

namespace FilterLang

/-!
# Editor — what a removed filter gives back

A filter is removed by its place, and a field is used by its name. Other filters may use the same
field, and filters may use fields that are not declared.

* `Catalog.mem_entries_of_iff` — the entries of a catalog, said by the schema, the fields in use and
  the banned constraints.
* `Editor.mem_fields_without_iff` — the fields that are still in use.
* `Editor.without_catalog_without` — apart from the field of the removed filter, the catalog stays as
  it is.
* `Editor.catalog_of_removal` — so a removal gives back this field, if anything.
-/

namespace Catalog

/-- An entry of a catalog: its field is declared and not in use, and its constraints are all that apply
and are not banned, if there are any. -/
theorem mem_entries_of_iff {schema : Schema} {used : List String} {blacklist : Blacklist}
    {field : String} {constraints : List Constraint} :
    (field, constraints) ∈ (Catalog.of schema used blacklist).entries ↔
      ∃ type, schema.get? field = some type ∧ field ∉ used ∧
        (∃ constraint ∈ Constraint.forKind type.kind, blacklist.bans constraint = false) ∧
        constraints = (Constraint.forKind type.kind).filter (!blacklist.bans ·) := by
  rw [mem_entries_iff, get?_of, Option.bind_eq_some_iff]
  refine exists_congr fun type => and_congr_right fun _ => ?_
  -- the field is listed when its kind keeps some constraint, which is the permitted list not empty
  have left : (∃ constraint ∈ Constraint.forKind type.kind, blacklist.bans constraint = false) ↔
      blacklist.permitted type.kind ≠ [] := by
    rw [ne_eq, List.eq_nil_iff_forall_not_mem]
    simp
  unfold remaining?
  rw [left]
  split
  next taken =>
    refine iff_of_false (by simp) ?_
    rintro ⟨unused, some, -⟩
    exact taken.elim unused some
  next free =>
    obtain ⟨unused, some⟩ := not_or.1 free
    rw [Option.some.injEq, eq_comm]
    exact ⟨fun same => ⟨unused, some, same⟩, fun h => h.2.2⟩

end Catalog

namespace Editor

variable {e : Editor} {index : Nat}

/-- A field is still in use after a removal if a filter at another place uses it. -/
theorem mem_fields_without_iff {field : String} :
    field ∈ Filter.fields (e.without index).applied ↔
      ∃ (other : Nat) (inside : other < e.applied.length), other ≠ index ∧
        e.applied[other].field = field := by
  unfold without Filter.fields
  rw [List.mem_map]
  constructor
  · rintro ⟨f, kept, rfl⟩
    obtain ⟨other, inside, apart, rfl⟩ := List.mem_eraseIdx_iff_getElem.1 kept
    exact ⟨other, inside, apart, rfl⟩
  · rintro ⟨other, inside, apart, rfl⟩
    exact ⟨_, List.mem_eraseIdx_iff_getElem.2 ⟨other, inside, apart, rfl⟩, rfl⟩

/-- Together with the field of the removed filter, the same fields are in use as before. -/
theorem mem_fields_without_append_iff (h : index < e.applied.length) (name : String) :
    name ∈ Filter.fields (e.without index).applied ++ [e.applied[index].field] ↔
      name ∈ Filter.fields e.applied ++ [e.applied[index].field] := by
  -- both sides in terms of positions, since `without` takes out a position and not a field
  have before : name ∈ Filter.fields e.applied ↔
      ∃ (other : Nat) (inside : other < e.applied.length), e.applied[other].field = name := by
    rw [Filter.fields, List.mem_map]
    constructor
    · rintro ⟨f, applied, rfl⟩
      obtain ⟨other, inside, rfl⟩ := List.getElem_of_mem applied
      exact ⟨other, inside, rfl⟩
    · rintro ⟨other, inside, rfl⟩
      exact ⟨_, List.getElem_mem inside, rfl⟩
  rw [List.mem_append, List.mem_append, mem_fields_without_iff, before, List.mem_singleton]
  constructor
  · rintro (⟨other, inside, -, rfl⟩ | rfl)
    · exact .inl ⟨other, inside, rfl⟩
    · exact .inr rfl
  · rintro (⟨other, inside, rfl⟩ | rfl)
    · -- the removed filter itself: its field is the one put back
      by_cases same : other = index
      · subst same
        exact .inr rfl
      · exact .inl ⟨other, inside, same, rfl⟩
    · exact .inr rfl

/-- Apart from the field of the removed filter, the catalog stays as it is. -/
theorem without_catalog_without (h : index < e.applied.length) :
    (e.without index).scope.catalog.without e.applied[index].field =
      e.scope.catalog.without e.applied[index].field := by
  unfold Scope.catalog
  rw [← Catalog.of_append_singleton, ← Catalog.of_append_singleton]
  exact Catalog.of_congr (mem_fields_without_append_iff h)

/-- **Giving a field back.** Removing a filter changes no entry of the catalog but that of its own
field, and no order. That field is listed afterwards if and only if it is declared, no other filter
uses it and some constraint that applies to it is not banned; it is then listed once, with all such
constraints in their order. -/
theorem catalog_of_removal (e : Editor) {index : Nat} (h : index < e.applied.length) :
    let field := e.applied[index].field
    let freed := (e.without index).scope.catalog
    freed.without field = e.scope.catalog.without field ∧
      freed.fields.Nodup ∧
      ∀ constraints, (field, constraints) ∈ freed.entries ↔
        ∃ type, e.schema.get? field = some type ∧
          (∀ (other : Nat) (inside : other < e.applied.length), other ≠ index →
            e.applied[other].field ≠ field) ∧
          (∃ constraint ∈ Constraint.forKind type.kind, e.blacklist.bans constraint = false) ∧
          constraints = (Constraint.forKind type.kind).filter (!e.blacklist.bans ·) := by
  intro field freed
  refine ⟨without_catalog_without h, Catalog.nodup_fields, fun constraints => ?_⟩
  -- the freed field is listed again unless some other filter still uses it
  have unused : field ∉ Filter.fields (e.without index).applied ↔
      ∀ (other : Nat) (inside : other < e.applied.length), other ≠ index →
        e.applied[other].field ≠ field := by
    rw [mem_fields_without_iff]
    push Not
    rfl
  show (field, constraints) ∈ (Catalog.of e.schema _ e.blacklist).entries ↔ _
  rw [Catalog.mem_entries_of_iff]
  refine exists_congr fun type => and_congr_right fun _ => and_congr_left fun _ => ?_
  exact unused

/-- Next to a field that is not declared, one that two filters use and one whose constraints are partly
banned: the third filter gives its field back, the second does not. -/
theorem catalog_of_removal_shared :
    let schema : Schema :=
      ⟨[("size", .of .number), ("tags", .of .array), ("name", .of .string)], by decide⟩
    let e : Editor := ⟨schema, .builtin,
      [⟨"old", .present, .bool true⟩, ⟨"name", .equalTo, .text "a"⟩,
        ⟨"tags", .contains, .text "b"⟩, ⟨"name", .endsWith, .text "c"⟩], ""⟩
    1 < e.applied.length ∧ 2 < e.applied.length ∧
      (e.without 2).scope.catalog.without "tags" = e.scope.catalog.without "tags" ∧
      ("tags", [.present, .absent, .contains, .doesNotContain]) ∈
        (e.without 2).scope.catalog.entries ∧
      (e.without 1).scope.catalog.without "name" = e.scope.catalog.without "name" ∧
      ∀ constraints, ("name", constraints) ∉ (e.without 1).scope.catalog.entries := by
  intro schema e
  have first : 1 < e.applied.length := by decide
  have second : 2 < e.applied.length := by decide
  have declared : e.schema.get? "tags" = some (.of .array) := by decide
  have alone : ∀ (other : Nat) (inside : other < e.applied.length), other ≠ 2 →
      e.applied[other].field ≠ "tags" := by decide
  obtain ⟨kept, -, listed⟩ := catalog_of_removal e second
  obtain ⟨kept', -, listed'⟩ := catalog_of_removal e first
  refine ⟨first, second, kept, ?_, kept', ?_⟩
  · exact (listed _).2 ⟨.of .array, declared, alone, ⟨.present, by decide⟩, by decide⟩
  · -- the filter at place 3 still uses the name
    intro constraints entry
    obtain ⟨_, -, free, -⟩ := (listed' constraints).1 entry
    exact free 3 (by decide) (by decide) rfl

end Editor

end FilterLang
