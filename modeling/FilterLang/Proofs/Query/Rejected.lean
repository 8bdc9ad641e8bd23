import Mathlib.Data.List.Perm.Subperm
import FilterLang.Proofs.Query.Spared

namespace FilterLang

/-!
# Query — how many rows are rejected

Which rows of a text are rejected depends on their order and on the scope in a tangled way: a row
that is rejected leaves its field to a row below it. But each field that some row stands for is used
by exactly one accepted row. So the accepted rows can be counted by their fields, and the fields do
not depend on the order of the rows.

* `Scope.sparedFields` — the fields of the rows without a diagnostic; they are those that some row
  stands for, and each of them is there once.
* `Scope.compile_perm` — rows in another order have as many diagnostics and use the same fields.
* `Scope.IsNarrower` — a scope in which less can be said.
* `Scope.compile_of_isNarrower` — what is said in a narrower scope can be said in a wider one, and a
  text has no more diagnostics there.
-/

namespace Scope

variable {scope narrow wide : Scope}

/-! ### Fields of spared rows -/

/-- The first tokens of the rows of a text that have no diagnostic. -/
def sparedFields (scope : Scope) (text : String) : List String :=
  (Diagnostic.spared (scope.diagnostics text) (Line.ofText text)).map (firstToken ·.text.toList)

/-- They are the fields of the filters of these rows. -/
theorem sparedFields_eq (scope : Scope) (text : String) :
    scope.sparedFields text = Filter.fields (scope.acceptedFilters text) := by
  rw [← map_firstToken_eq_fields (List.forall₂_map_left_iff.2 (forall₂_spared scope text)),
    List.map_map]
  rfl

theorem nodup_sparedFields (scope : Scope) (text : String) : (scope.sparedFields text).Nodup := by
  rw [sparedFields_eq]
  exact nodup_fields_acceptedFilters scope text

/-- A field is spared if some row stands alone with it, whatever the order of the rows is. -/
theorem mem_sparedFields_iff {text field : String} :
    field ∈ scope.sparedFields text ↔
      ∃ row ∈ (Line.ofText text).map (·.text), ∃ f, scope.StandsAs row f ∧ f.field = field := by
  rw [sparedFields_eq, mem_fields_acceptedFilters_iff]

/-- Each row has a diagnostic, or its field is spared. -/
theorem length_diagnostics_add_sparedFields (scope : Scope) (text : String) :
    (scope.diagnostics text).length + (scope.sparedFields text).length =
      ((Line.ofText text).map (·.text)).length := by
  rw [sparedFields_eq, Filter.fields, List.length_map, List.length_map, length_diagnostics_add]

/-! ### The order of rows -/

/-- A row has a meaning of its own, in whatever text it stands. -/
theorem exists_meaning (scope : Scope) :
    ∃ meaning : String → Filter, ∀ row f, scope.StandsAs row f → meaning row = f := by
  refine ⟨fun row => (scope.judge [] row).toOption.getD ⟨"", .present, .bool true⟩, ?_⟩
  intro row f stands
  have judged : scope.judge [] row = .ok f := judge_eq_ok_iff.2 ⟨stands, List.not_mem_nil⟩
  simp only [judged, Except.toOption, Option.getD_some]

/-- A text has filters if each of its rows stands for its meaning, on a field of its own. -/
theorem compile_eq_ok_iff_meaning {meaning : String → Filter}
    (h : ∀ row f, scope.StandsAs row f → meaning row = f) {text : String} {filters : List Filter} :
    scope.compile text = .ok filters ↔
      filters = ((Line.ofText text).map (·.text)).map meaning ∧
        (∀ row ∈ (Line.ofText text).map (·.text), scope.StandsAs row (meaning row)) ∧
        (Filter.fields (((Line.ofText text).map (·.text)).map meaning)).Nodup := by
  rw [compile_eq_ok_iff_rows]
  generalize (Line.ofText text).map (·.text) = rows
  constructor
  · rintro ⟨stand, distinct⟩
    -- each filter is what its row means, and no row means two
    have same : rows.map meaning = filters := by
      rw [← List.forall₂_eq_eq_eq, List.forall₂_map_left_iff]
      exact stand.imp h
    subst same
    rw [List.forall₂_map_right_iff, List.forall₂_same] at stand
    exact ⟨rfl, stand, distinct⟩
  · rintro ⟨rfl, stand, distinct⟩
    rw [List.forall₂_map_right_iff, List.forall₂_same]
    exact ⟨stand, distinct⟩

/-- **The order of rows.** If the lines of a text change places, it has as many diagnostics as
before, and the rows without a diagnostic are on the same fields. If it has filters, they change
places with their lines. -/
theorem compile_perm (scope : Scope) {lines lines' : List String} (perm : lines.Perm lines')
    (whole : ∀ line ∈ lines, '\n' ∉ line.toList ∧ line.toList.getLast? ≠ some '\r') :
    let text := "\n".intercalate lines
    let text' := "\n".intercalate lines'
    (scope.diagnostics text).length = (scope.diagnostics text').length ∧
      (scope.sparedFields text).Perm (scope.sparedFields text') ∧
      ∀ filters, scope.compile text = .ok filters →
        ∃ meaning : String → Filter, filters = (lines.filter (· ≠ "")).map meaning ∧
          scope.compile text' = .ok ((lines'.filter (· ≠ "")).map meaning) := by
  intro text text'
  have upper := Line.texts_ofText_intercalate whole
  have lower := Line.texts_ofText_intercalate fun line hl => whole line (perm.mem_iff.2 hl)
  have rows : ((Line.ofText text).map (·.text)).Perm ((Line.ofText text').map (·.text)) := by
    rw [upper, lower]
    exact perm.filter _
  -- both orders spare the fields that some row stands for, each of them once
  have spared : (scope.sparedFields text).Perm (scope.sparedFields text') := by
    rw [List.perm_ext_iff_of_nodup (nodup_sparedFields scope text) (nodup_sparedFields scope text')]
    intro field
    simp only [mem_sparedFields_iff, rows.mem_iff]
  refine ⟨?_, spared, fun filters compiled => ?_⟩
  · have count := length_diagnostics_add_sparedFields scope text
    have count' := length_diagnostics_add_sparedFields scope text'
    have := rows.length_eq
    have := spared.length_eq
    omega
  · obtain ⟨meaning, unique⟩ := exists_meaning scope
    obtain ⟨rfl, stand, distinct⟩ := (compile_eq_ok_iff_meaning unique).1 compiled
    refine ⟨meaning, by rw [upper], ?_⟩
    rw [← lower, compile_eq_ok_iff_meaning unique]
    exact ⟨rfl, fun row hr => stand row (rows.mem_iff.2 hr),
      ((rows.map meaning).map Filter.field).nodup_iff.1 distinct⟩

/-- Lines with an empty one among them. In one order two of the rows are duplicates, in the other
one of them; and in both orders of other lines there is no fault. -/
theorem compile_perm_other_faults :
    let schema : Schema := ⟨[("name", .of .string), ("size", .of .number)], by decide⟩
    let scope : Scope := ⟨schema, [], .builtin⟩
    let lines := ["name near a", "name endsWith b", "", "name endsWith c", "size"]
    let lines' := ["size", "name endsWith c", "name near a", "name endsWith b", ""]
    let text := "\n".intercalate lines
    let text' := "\n".intercalate lines'
    let plain := ["size exists true", "", "name endsWith  b"]
    lines.Perm lines' ∧
      (∀ line ∈ lines, '\n' ∉ line.toList ∧ line.toList.getLast? ≠ some '\r') ∧
      (scope.diagnostics text).length = (scope.diagnostics text').length ∧
      (scope.diagnostics text).map (·.fault.name) ≠ (scope.diagnostics text').map (·.fault.name) ∧
      (scope.sparedFields text).Perm (scope.sparedFields text') ∧
      plain.Perm plain.reverse ∧
      (∀ line ∈ plain, '\n' ∉ line.toList ∧ line.toList.getLast? ≠ some '\r') ∧
      scope.compile ("\n".intercalate plain) =
        .ok [⟨"size", .present, .bool true⟩, ⟨"name", .endsWith, .text " b"⟩] ∧
      ∃ meaning : String → Filter,
        [⟨"size", .present, .bool true⟩, ⟨"name", .endsWith, .text " b"⟩] =
            (plain.filter (· ≠ "")).map meaning ∧
          scope.compile ("\n".intercalate plain.reverse) =
            .ok ((plain.reverse.filter (· ≠ "")).map meaning) := by
  intro schema scope lines lines' text text' plain
  have perm : lines.Perm lines' := by decide
  have whole : ∀ line ∈ lines, '\n' ∉ line.toList ∧ line.toList.getLast? ≠ some '\r' := by decide
  have reversed : plain.Perm plain.reverse := by decide
  have whole' : ∀ line ∈ plain, '\n' ∉ line.toList ∧ line.toList.getLast? ≠ some '\r' := by decide
  have compiled : scope.compile ("\n".intercalate plain) =
      .ok [⟨"size", .present, .bool true⟩, ⟨"name", .endsWith, .text " b"⟩] := by decide +kernel
  obtain ⟨count, spared, -⟩ := compile_perm scope perm whole
  exact ⟨perm, whole, count, by decide +kernel, spared, reversed, whole', compiled,
    (compile_perm scope reversed whole').2.2 _ compiled⟩

/-! ### Narrower scopes -/

/-- Less can be said in one scope than in another: with the same schema, at least the fields of the
other are in use, and at least its constraints are banned. -/
structure IsNarrower (narrow wide : Scope) : Prop where
  schema_eq : narrow.schema = wide.schema
  used : ∀ field ∈ Filter.fields wide.inPlace, field ∈ Filter.fields narrow.inPlace
  banned : ∀ constraint, wide.blacklist.bans constraint = true →
    narrow.blacklist.bans constraint = true

/-- What is offered in a narrower scope is offered in a wider one. -/
theorem IsNarrower.offers (h : narrow.IsNarrower wide) {type : FieldType} {f : Filter}
    (offers : narrow.Offers type f) : wide.Offers type f where
  declared := h.schema_eq ▸ offers.declared
  unused := fun used => offers.unused (h.used f.field used)
  applies := offers.applies
  allowed := by
    rw [Bool.eq_false_iff]
    intro banned
    have := h.banned f.constraint banned
    rw [offers.allowed] at this
    cases this

/-- A row that stands alone in a narrower scope says the same in a wider one. -/
theorem IsNarrower.standsAs (h : narrow.IsNarrower wide) {row : String} {f : Filter} :
    narrow.StandsAs row f → wide.StandsAs row f := by
  rintro ⟨type, tail, tokens, offers, value⟩
  exact ⟨type, tail, tokens, h.offers offers, value⟩

/-- **Narrowing the scope.** If a text has filters in a narrower scope, it has the same filters in
the wider one. In general, it has at most as many diagnostics there. -/
theorem compile_of_isNarrower (h : narrow.IsNarrower wide) (text : String) :
    (∀ filters, narrow.compile text = .ok filters → wide.compile text = .ok filters) ∧
      (wide.diagnostics text).length ≤ (narrow.diagnostics text).length := by
  constructor
  · intro filters compiled
    obtain ⟨stand, distinct⟩ := compile_eq_ok_iff_rows.1 compiled
    exact compile_eq_ok_iff_rows.2 ⟨stand.imp fun _ _ => h.standsAs, distinct⟩
  · -- a field that some row stands for in the narrower scope is spared in the wider one
    have sub : narrow.sparedFields text ⊆ wide.sparedFields text := by
      intro field hf
      obtain ⟨row, hr, f, stands, same⟩ := mem_sparedFields_iff.1 hf
      exact mem_sparedFields_iff.2 ⟨row, hr, f, h.standsAs stands, same⟩
    have fewer := ((nodup_sparedFields narrow text).subperm sub).length_le
    have count := length_diagnostics_add_sparedFields narrow text
    have count' := length_diagnostics_add_sparedFields wide text
    omega

/-- A banned constraint rejects one row, whereby its field is left to a row below it, which is a
duplicate in the wider scope. -/
theorem compile_of_isNarrower_field_left :
    let schema : Schema := ⟨[("name", .of .string), ("size", .of .number)], by decide⟩
    let wide : Scope := ⟨schema, [⟨"old", .present, .bool true⟩], .empty⟩
    let narrow : Scope :=
      ⟨schema, [⟨"size", .lessThan, .bool true⟩, ⟨"old", .absent, .bool true⟩], ⟨[.startsWith]⟩⟩
    let text := "name startsWith a\nname endsWith b\nsize exists true"
    let filters : List Filter := [⟨"name", .endsWith, .text "b"⟩]
    narrow.IsNarrower wide ∧
      (wide.diagnostics text).map (·.row) = [1] ∧ (narrow.diagnostics text).map (·.row) = [0, 2] ∧
      (wide.diagnostics text).length ≤ (narrow.diagnostics text).length ∧
      narrow.compile "name endsWith b" = .ok filters ∧
      wide.compile "name endsWith b" = .ok filters := by
  intro schema wide narrow text filters
  -- the narrow scope takes a field and bans a constraint
  have narrower : narrow.IsNarrower wide :=
    ⟨rfl, by decide, fun constraint => by cases constraint <;> decide⟩
  have compiled : narrow.compile "name endsWith b" = .ok filters := by decide +kernel
  exact ⟨narrower, by decide +kernel, by decide +kernel, (compile_of_isNarrower narrower text).2,
    compiled, (compile_of_isNarrower narrower "name endsWith b").1 filters compiled⟩

end Scope

end FilterLang
