import FilterLang.Proofs.Catalog.Used

namespace FilterLang

/-!
# Catalog — rows that are added by default

A new row starts with the first field that is listed and with the first of its constraints. Whatever
the row is compared with, its field is in use once it has been added.

* `Scope.defaultFilter?_eq_none_iff` — nothing is proposed if and only if nothing is listed.
* `Scope.defaultFilter?_eq_some_iff` — the step: the entry of the proposed field goes, and all others
  stay in their order.
* `Scope.AddsDefaults` — filters that are added one after the other as they are proposed.
* `Scope.addsDefaults_iff`, `Scope.AddsDefaults.entries_eq` — the run: these are the first entries of the
  catalog, and the others are left.
* `Scope.addsDefaults_enumerates` — so adding rows goes through the catalog once and stops.
* `Scope.defaultFilter?_eq_none_iff_compile` — nothing is proposed if and only if no row can be typed,
  and what is proposed can be typed.
-/

namespace Scope

variable {scope : Scope}

/-! ### One row -/

/-- The catalog once one more filter is in place. -/
theorem catalog_after_singleton (scope : Scope) (f : Filter) :
    (scope.after [f]).catalog = scope.catalog.without f.field := by
  rw [catalog, fields_inPlace_after]
  exact Catalog.of_append_singleton _ _ _ _

/-- No filter is proposed if no field is left. -/
theorem defaultFilter?_eq_none_iff : scope.defaultFilter? = none ↔ scope.catalog.entries = [] := by
  unfold defaultFilter? Catalog.first?
  constructor
  · intro none
    split at none
    next => cases none
    next unlike =>
      -- the first entry would have a first constraint
      refine List.eq_nil_iff_forall_not_mem.2 fun entry listed => ?_
      obtain ⟨⟨field, constraints⟩, rest, first⟩ :=
        List.exists_cons_of_ne_nil (List.ne_nil_of_mem listed)
      have some := Catalog.ne_nil_of_mem_entries (first ▸ List.mem_cons_self :
        (field, constraints) ∈ scope.catalog.entries)
      obtain ⟨constraint, constraints, rfl⟩ := List.exists_cons_of_ne_nil some
      exact unlike field constraint constraints rest first
  · intro empty
    rw [empty]

/-- A filter starts as proposed if the catalog starts with an entry for its field that starts with its
constraint; the rest of the catalog is what is left once the filter is in place. -/
theorem defaultFilter?_eq_some_iff {f : Filter} :
    scope.defaultFilter? = some (f.field, f.constraint) ↔
      ∃ constraints, scope.catalog.entries =
        (f.field, f.constraint :: constraints) :: (scope.after [f]).catalog.entries := by
  constructor
  · intro proposed
    unfold defaultFilter? Catalog.first? at proposed
    split at proposed
    next field constraint constraints rest first =>
      simp only [Option.some.injEq, Prod.mk.injEq] at proposed
      obtain ⟨rfl, rfl⟩ := proposed
      have distinct : scope.catalog.fields.Nodup := Catalog.nodup_fields
      -- a field has one entry, so leaving the first field out leaves every later entry
      have others : ∀ entry ∈ rest, entry.1 ≠ f.field := by
        intro entry listed same
        rw [Catalog.fields, first, List.map_cons, List.nodup_cons] at distinct
        exact distinct.1 (List.mem_map.2 ⟨entry, listed, same⟩)
      refine ⟨constraints, ?_⟩
      rw [catalog_after_singleton, Catalog.without, first, List.filter_cons_of_neg (by simp),
        List.filter_eq_self.2 (by simpa using others)]
    next => cases proposed
  · rintro ⟨constraints, first⟩
    rw [defaultFilter?, Catalog.first?, first]

/-! ### All rows -/

/-- Filters that are added one after the other, each on the field and with the constraint that are
proposed when its turn comes, and with any value. -/
inductive AddsDefaults : Scope → List Filter → Prop
  | nil (scope : Scope) : AddsDefaults scope []
  | cons {scope : Scope} {f : Filter} {later : List Filter}
      (proposed : scope.defaultFilter? = some (f.field, f.constraint))
      (run : AddsDefaults (scope.after [f]) later) : AddsDefaults scope (f :: later)

theorem after_nil (scope : Scope) : scope.after [] = scope := by
  rw [after, List.append_nil]

theorem after_after (scope : Scope) (first second : List Filter) :
    (scope.after first).after second = scope.after (first ++ second) := by
  simp only [after, List.append_assoc]

/-- What the entries of a catalog propose: their fields, each with the first of its constraints. -/
def proposals (scope : Scope) : List (String × Option Constraint) :=
  scope.catalog.entries.map fun entry => (entry.1, entry.2.head?)

/-- A run goes through the entries from the first one on, and the rest of them is left. -/
theorem AddsDefaults.proposals_eq {added : List Filter} (run : scope.AddsDefaults added) :
    scope.proposals =
      added.map (fun f => (f.field, some f.constraint)) ++ (scope.after added).proposals := by
  induction run with
  | nil scope => rw [after_nil, List.map_nil, List.nil_append]
  | @cons scope f later proposed run ih =>
    obtain ⟨constraints, first⟩ := defaultFilter?_eq_some_iff.1 proposed
    rw [after_after, List.singleton_append] at ih
    rw [List.map_cons, List.cons_append, ← ih, proposals, first]
    rfl

/-- Filters are added as proposed if and only if the catalog starts with what they say. -/
theorem addsDefaults_iff {added : List Filter} :
    scope.AddsDefaults added ↔
      added.map (fun f => (f.field, some f.constraint)) <+: scope.proposals := by
  constructor
  · intro run
    exact ⟨_, run.proposals_eq.symm⟩
  · intro start
    induction added generalizing scope with
    | nil => exact .nil scope
    | cons f later ih =>
      obtain ⟨rest, whole⟩ := start
      rw [List.map_cons, List.cons_append, proposals, eq_comm, List.map_eq_cons_iff] at whole
      obtain ⟨⟨field, constraints⟩, others, first, same, below⟩ := whole
      obtain ⟨rfl, leads⟩ := Prod.mk.inj same
      obtain ⟨constraints, rfl⟩ := List.head?_eq_some_iff.1 leads
      have proposed : scope.defaultFilter? = some (f.field, f.constraint) := by
        rw [defaultFilter?, Catalog.first?, first]
      -- the others are the entries that are left
      obtain ⟨_, left⟩ := defaultFilter?_eq_some_iff.1 proposed
      obtain rfl := (List.cons.inj (first.symm.trans left)).2
      exact .cons proposed (ih ⟨rest, below.symm⟩)

@[simp] theorem length_proposals (scope : Scope) :
    scope.proposals.length = scope.catalog.entries.length :=
  List.length_map _

/-- **Adding rows by default.** Rows can be added as proposed, with any values, as often as the catalog
has entries and not more often, and nothing is proposed any more just when all of them have been
added. The fields and constraints of these rows are then the listed fields, each once and in the
order of the schema, with the first of their constraints. -/
theorem addsDefaults_enumerates (scope : Scope) :
    (∀ added, scope.AddsDefaults added →
      added.length ≤ scope.catalog.entries.length ∧
        ((scope.after added).defaultFilter? = none ↔
          added.length = scope.catalog.entries.length)) ∧
    (∀ added, scope.AddsDefaults added ∧ (scope.after added).defaultFilter? = none ↔
      added.map (fun f => (f.field, some f.constraint)) =
        scope.catalog.entries.map fun entry => (entry.1, entry.2.head?)) ∧
    scope.catalog.fields.Sublist scope.schema.names ∧ scope.catalog.fields.Nodup := by
  -- What is still proposed is what was proposed at the start less what was added, in order,
  -- so nothing is left exactly when as many were added as there were entries.
  have stops (added : List Filter) (run : scope.AddsDefaults added) :
      (scope.after added).defaultFilter? = none ↔
        added.length = scope.catalog.entries.length := by
    have lengths := congrArg List.length run.proposals_eq
    rw [List.length_append, List.length_map, length_proposals, length_proposals] at lengths
    rw [defaultFilter?_eq_none_iff, ← List.length_eq_zero_iff]
    omega
  refine ⟨fun added run => ⟨?_, stops added run⟩, fun added => ?_, Catalog.fields_sublist,
    Catalog.nodup_fields⟩
  · have start := (addsDefaults_iff.1 run).length_le
    rwa [List.length_map, length_proposals] at start
  · show _ ↔ _ = scope.proposals
    constructor
    · -- a run is a prefix of the proposals of the start, and one of full length is all of them
      rintro ⟨run, none⟩
      refine (addsDefaults_iff.1 run).eq_of_length ?_
      rw [List.length_map, length_proposals, (stops added run).1 none]
    · intro all
      have run : scope.AddsDefaults added := addsDefaults_iff.2 (all ▸ List.prefix_rfl)
      refine ⟨run, (stops added run).2 ?_⟩
      rw [← length_proposals, ← all, List.length_map]

/-- Next to a field in use and one on which everything is banned, two fields are left; after the first
of them, the other one is still proposed. -/
theorem addsDefaults_enumerates_two_left :
    let schema : Schema :=
      ⟨[("name", .of .string), ("size", .of .number), ("members", ⟨.relation, some "_User"⟩),
        ("tags", .of .array)], by decide⟩
    let scope : Scope := ⟨schema, [⟨"size", .equalTo, .bool true⟩], ⟨[.relatedTo, .present]⟩⟩
    let first : Filter := ⟨"name", .absent, .bool true⟩
    let second : Filter := ⟨"tags", .absent, .text "a b"⟩
    scope.AddsDefaults [first] ∧ [first].length ≤ scope.catalog.entries.length ∧
      (scope.after [first]).defaultFilter? = some ("tags", .absent) ∧
      scope.AddsDefaults [first, second] ∧ (scope.after [first, second]).defaultFilter? = none := by
  intro schema scope first second
  have proposed : scope.defaultFilter? = some (first.field, first.constraint) := by decide
  have run : scope.AddsDefaults [first] := .cons proposed (.nil _)
  obtain ⟨partly, all, -⟩ := addsDefaults_enumerates scope
  obtain ⟨complete, none⟩ := (all [first, second]).2 (by decide)
  exact ⟨run, (partly [first] run).1, by decide, complete, none⟩

/-! ### Rows that can be typed -/

/-- A text with a row has no filters if nothing is listed. -/
theorem not_compile_of_entries_eq_nil (empty : scope.catalog.entries = []) {text : String}
    {line : List Char} (written : line ∈ lines text.toList) (ne : line ≠ [])
    (filters : List Filter) : scope.compile text ≠ .ok filters := by
  intro compiled
  obtain ⟨f, -, type, -, -, offers, -⟩ := exists_standsAs_of_compile compiled written ne
  have listed := (offers_iff_allows offers.declared).1 offers
  rw [Catalog.allows_iff, Catalog.get?, empty] at listed
  exact List.not_mem_nil listed

/-- A text with filters has a row. -/
theorem exists_line_of_compile {text : String} {f : Filter} {filters : List Filter}
    (compiled : scope.compile text = .ok (f :: filters)) :
    ∃ line ∈ lines text.toList, line ≠ [] := by
  obtain ⟨_, _, -, -, rows⟩ :=
    List.forall₂_cons_right_iff.1 (compile_eq_ok_iff_rows.1 compiled).1
  have row := rows ▸ List.mem_cons_self
  rw [Line.texts_ofText, List.mem_map] at row
  obtain ⟨line, written, -⟩ := row
  obtain ⟨written, ne⟩ := List.mem_filter.1 written
  exact ⟨line, written, of_decide_eq_true ne⟩

/-- What is proposed can be typed, with a truth value at least. -/
theorem compile_query_default (valid : scope.schema.IsValid) {field : String}
    {constraint : Constraint} (proposed : scope.defaultFilter? = some (field, constraint)) :
    scope.compile (Filter.query [⟨field, constraint, .bool true⟩]) =
      .ok [⟨field, constraint, .bool true⟩] := by
  obtain ⟨constraints, first⟩ :=
    (@defaultFilter?_eq_some_iff scope ⟨field, constraint, .bool true⟩).1 proposed
  obtain ⟨⟨type, declared⟩, found⟩ := Catalog.get?_of_mem_entries
    (first ▸ List.mem_cons_self : (field, constraint :: constraints) ∈ scope.catalog.entries)
  have allows := (Catalog.allows_of_get? found constraint).2 List.mem_cons_self
  have row : Filter.query [⟨field, constraint, .bool true⟩] =
      field ++ " " ++ constraint.spelling ++ " " ++ "true" := String.intercalate_singleton
  rw [row, compile_row_eq_ok_iff_allows valid declared constraint (by decide)]
  exact ⟨allows, .bool true, rfl, rfl⟩

/-- **Nothing to add.** With a valid schema, nothing is proposed for a new row if and only if every text
with a line that is not empty is rejected; and what is proposed is a row that can be typed, next to
the filters in place. -/
theorem defaultFilter?_eq_none_iff_compile (valid : scope.schema.IsValid) :
    (scope.defaultFilter? = none ↔
      ∀ text, (∃ line ∈ lines text.toList, line ≠ []) →
        ∃ diagnostics, scope.compile text = .error diagnostics) ∧
    ∀ field constraint, scope.defaultFilter? = some (field, constraint) →
      scope.compile (Filter.query [⟨field, constraint, .bool true⟩]) =
        .ok [⟨field, constraint, .bool true⟩] := by
  refine ⟨?_, fun field constraint => compile_query_default valid⟩
  constructor
  · rintro none text ⟨line, written, ne⟩
    cases compiled : scope.compile text with
    | error diagnostics => exact ⟨diagnostics, rfl⟩
    | ok filters =>
      have empty := defaultFilter?_eq_none_iff.1 none
      exact absurd compiled (not_compile_of_entries_eq_nil empty written ne filters)
  · intro rejected
    cases proposed : scope.defaultFilter? with
    | none => rfl
    | some pair =>
      -- the row that is proposed would be a counterexample
      obtain ⟨field, constraint⟩ := pair
      have compiled := compile_query_default valid proposed
      obtain ⟨diagnostics, failed⟩ := rejected _ (exists_line_of_compile compiled)
      cases compiled.symm.trans failed

/-- A field of which two constraints are banned is proposed with the third, and a text with a line is
rejected once the one field that is left has only banned constraints. -/
theorem defaultFilter?_eq_none_iff_compile_banned :
    let schema : Schema :=
      ⟨[("members", ⟨.relation, some "_User"⟩), ("name", .of .string)], by decide⟩
    let some : Scope := ⟨schema, [⟨"members", .relatedTo, .bool true⟩], ⟨[.absent, .present]⟩⟩
    let none : Scope := ⟨schema, [⟨"name", .absent, .bool true⟩], ⟨[.relatedTo]⟩⟩
    some.schema.IsValid ∧ some.defaultFilter? = .some ("name", .equalTo) ∧
      some.compile (Filter.query [⟨"name", .equalTo, .bool true⟩]) =
        .ok [⟨"name", .equalTo, .bool true⟩] ∧
      none.schema.IsValid ∧ none.defaultFilter? = .none ∧
      (∃ line ∈ lines "\r\nmembers relatedTo true".toList, line ≠ []) ∧
      ∃ diagnostics, none.compile "\r\nmembers relatedTo true" = .error diagnostics := by
  intro schema some none
  have valid : schema.IsValid := by decide
  have proposed : some.defaultFilter? = .some ("name", .equalTo) := by decide
  have nothing : none.defaultFilter? = .none := by decide
  have written : ∃ line ∈ lines "\r\nmembers relatedTo true".toList, line ≠ [] :=
    ⟨"members relatedTo true".toList, by decide, by decide⟩
  obtain ⟨-, typed⟩ := @defaultFilter?_eq_none_iff_compile some valid
  obtain ⟨rejects, -⟩ := @defaultFilter?_eq_none_iff_compile none valid
  exact ⟨valid, proposed, typed _ _ proposed, valid, nothing, written,
    rejects.1 nothing _ written⟩

end Scope

end FilterLang
