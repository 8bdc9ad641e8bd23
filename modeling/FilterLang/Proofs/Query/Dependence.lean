import FilterLang.Proofs.Query.Acceptance
import FilterLang.Proofs.Text.Returns

namespace FilterLang

/-!
# Query — what the verdict on a text depends on

Each row is judged by a catalog of its own, made of the whole schema and of all filters in place. It
looks up one field there, the one that it starts with, and an entry of the catalog depends on its
own field only. So two scopes need not be the same to judge a text alike, faults and all: it is
enough that they agree on the first tokens of its rows. Of the text itself it is the lines that count,
and not how they are ended.

* `Scope.AgreeOn` — two scopes say the same of a field.
* `Scope.get?_catalogAfter_congr` — their catalogs list the same for it.
* `Scope.judge_congr`, `Scope.verdicts_congr` — a row and all rows of a text are judged alike.
* `Scope.compile_eq_of_agreeOn` — so a text has the same filters in both scopes, or the same diagnostics.
* `Scope.compile_withReturns` — carriage returns in its line breaks make no difference to a text.
-/

/-- Of the names in use, only its own one counts for a field. -/
theorem Catalog.remaining?_congr {used used' : List String} {name : String}
    (h : name ∈ used ↔ name ∈ used') (blacklist : Blacklist) (type : FieldType) :
    remaining? used blacklist name type = remaining? used' blacklist name type := by
  simp only [remaining?, h]

namespace Scope

variable {scope other : Scope}

/-- Two scopes agree on a field: it has the same type in both or is declared in neither, and it is in
use in both or in neither. -/
structure AgreeOn (scope other : Scope) (field : String) : Prop where
  declared : scope.schema.get? field = other.schema.get? field
  used : field ∈ Filter.fields scope.inPlace ↔ field ∈ Filter.fields other.inPlace

instance (scope other : Scope) (field : String) : Decidable (scope.AgreeOn other field) :=
  decidable_of_iff (scope.schema.get? field = other.schema.get? field ∧
      (field ∈ Filter.fields scope.inPlace ↔ field ∈ Filter.fields other.inPlace))
    ⟨fun h => ⟨h.1, h.2⟩, fun h => ⟨h.declared, h.used⟩⟩

/-! ### One field -/

/-- On a field on which scopes agree, the same constraints are left after the same rows. -/
theorem get?_catalogAfter_congr (same : scope.blacklist = other.blacklist) {field : String}
    (h : scope.AgreeOn other field) (accepted : List Accepted) :
    (scope.catalogAfter accepted).get? field = (other.catalogAfter accepted).get? field := by
  have used : field ∈ Filter.fields (scope.inPlace ++ accepted.map (·.filter)) ↔
      field ∈ Filter.fields (other.inPlace ++ accepted.map (·.filter)) := by
    have := h.used
    simp only [Filter.fields, List.map_append, List.mem_append] at this ⊢
    rw [this]
  rw [catalogAfter, catalogAfter, Catalog.get?_of, Catalog.get?_of, h.declared, same]
  exact Option.bind_congr fun type _ => Catalog.remaining?_congr used other.blacklist type

/-! ### One row, and all of them -/

/-- A row is judged alike by scopes that agree on its first token. -/
theorem judge_congr (same : scope.blacklist = other.blacklist) {text : String}
    (h : scope.AgreeOn other (firstToken text.toList)) (accepted : List Accepted) :
    scope.judge accepted text = other.judge accepted text := by
  cases parts : Row.ofText? text with
  | none => simp only [judge, parts]
  | some row =>
    rw [← Row.field_of_ofText? parts] at h
    -- the checks look the field up in the schema and in the catalog, and nowhere else
    have listed := get?_catalogAfter_congr same h accepted
    have allows (constraint : Constraint) :
        (scope.catalogAfter accepted).allows row.field constraint =
          (other.catalogAfter accepted).allows row.field constraint := by
      rw [Catalog.allows, Catalog.allows, listed]
    rw [judge_of_parts accepted parts, judge_of_parts accepted parts]
    simp only [h.declared, listed, allows]

/-- So are rows that start with such tokens: each of them leaves the same accepted rows to the next
one. -/
theorem verdicts_congr (same : scope.blacklist = other.blacklist) {lines : List Line}
    (h : ∀ line ∈ lines, scope.AgreeOn other (firstToken line.text.toList)) (row : Nat)
    (accepted : List Accepted) :
    scope.verdicts lines row accepted = other.verdicts lines row accepted := by
  -- Induction on the lines: the same judgement gives the same verdict and the same next list.
  induction lines generalizing row accepted with
  | nil => rfl
  | cons line lines ih =>
    obtain ⟨first, later⟩ := List.forall_mem_cons.1 h
    have judged := judge_congr same first accepted
    have verdict : scope.verdict accepted row line = other.verdict accepted row line := by
      rw [Scope.verdict, Scope.verdict, judged]
    have next : scope.step accepted row line = other.step accepted row line := by
      rw [step, step, judged]
    rw [verdicts_cons, verdicts_cons, verdict, next, ih later]

/-- **What a text depends on.** A text has the same filters or the same diagnostics in two scopes with
one blacklist that agree on the first tokens of its rows: the order of declarations, other fields
and all but the fields of the filters in place make no difference. -/
theorem compile_eq_of_agreeOn (same : scope.blacklist = other.blacklist) {text : String}
    (h : ∀ row ∈ Line.ofText text, scope.AgreeOn other (firstToken row.text.toList)) :
    scope.compile text = other.compile text := by
  rw [compile_eq, compile_eq, verdicts_congr same h]

/-- Fields in another order, other fields, another type for a field that no row starts with, and other
constraints and values in place. The diagnostics of all kinds are the same, with what they list. -/
theorem compile_eq_of_agreeOn_same_faults :
    let scope : Scope :=
      ⟨⟨[("name", .of .string), ("tags", .of .array), ("size", .of .number), ("old", .of .boolean)],
          by decide⟩,
        [⟨"size", .lessThan, .bool true⟩, ⟨"lost", .present, .bool true⟩], .builtin⟩
    let other : Scope :=
      ⟨⟨[("old", .of .date), ("size", .of .number), ("new", .of .file), ("name", .of .string),
          ("tags", .of .array)], by decide⟩,
        [⟨"old", .before, .text ""⟩, ⟨"size", .equalTo, .bool false⟩], .builtin⟩
    let text := "name endsWith a\nsize lessThan 1\nsize equalTo b\ntags containsAll c\n" ++
      "name near d\nname\r\n\nnone exists true"
    let diagnostics : List Diagnostic :=
      [⟨1, 2, "size lessThan 1", .unsupportedConstraint "size" "lessThan" []⟩,
        ⟨2, 3, "size equalTo b", .invalidValue "size" (.unsupported "b" .number)⟩,
        ⟨3, 4, "tags containsAll c", .unsupportedConstraint "tags" "containsAll"
          [.present, .absent, .contains, .doesNotContain]⟩,
        ⟨4, 5, "name near d", .duplicateField "name" 0⟩, ⟨5, 6, "name", .malformed⟩,
        ⟨6, 8, "none exists true", .unknownField "none"⟩]
    scope.blacklist = other.blacklist ∧
      (∀ row ∈ Line.ofText text, scope.AgreeOn other (firstToken row.text.toList)) ∧
      scope.compile text = .error diagnostics ∧ other.compile text = .error diagnostics := by
  intro scope other text diagnostics
  have agree : ∀ row ∈ Line.ofText text, scope.AgreeOn other (firstToken row.text.toList) := by
    decide +kernel
  have failed : scope.compile text = .error diagnostics := by decide +kernel
  have same : scope.blacklist = other.blacklist := rfl
  exact ⟨same, agree, failed, (compile_eq_of_agreeOn same agree).symm.trans failed⟩

/-! ### Line breaks -/

/-- **Line breaks.** A text without carriage returns has the same filters or the same diagnostics when
carriage returns are put before some of its line feeds: what the diagnostics say of their rows, their
lines and what is written there are the same. -/
theorem compile_withReturns (scope : Scope) {text : String} (plain : '\r' ∉ text.toList)
    (chosen : Nat → Bool) :
    scope.compile (String.ofList (withReturns chosen text.toList)) = scope.compile text := by
  have rows : Line.ofText (String.ofList (withReturns chosen text.toList)) = Line.ofText text := by
    rw [Line.ofText, String.toList_ofList, lines_withReturns plain, Line.ofText]
  rw [compile_eq, compile_eq, rows]

/-- Every other line break gets a carriage return, one before an empty line and the one at the end of
the text among them. The rows that they end are faulty, or accepted with a text or with nothing as
their literal. -/
theorem compile_withReturns_every_other :
    let scope : Scope :=
      ⟨⟨[("name", .of .string), ("size", .of .number), ("tags", .of .array)], by decide⟩,
        [⟨"old", .present, .bool true⟩], .builtin⟩
    let text := "name endsWith a \n\nsize lessThan\nsize lessThan b\ntags present\ntags exists\n\n"
    let returned :=
      "name endsWith a \r\n\nsize lessThan\r\nsize lessThan b\ntags present\r\ntags exists\n\r\n"
    let diagnostics : List Diagnostic :=
      [⟨1, 3, "size lessThan", .invalidValue "size" (.unsupported "" .number)⟩,
        ⟨2, 4, "size lessThan b", .invalidValue "size" (.unsupported "b" .number)⟩,
        ⟨3, 5, "tags present", .unsupportedConstraint "tags" "present"
          [.present, .absent, .contains, .doesNotContain]⟩]
    '\r' ∉ text.toList ∧ String.ofList (withReturns (· % 2 = 0) text.toList) = returned ∧
      scope.compile text = .error diagnostics ∧ scope.compile returned = .error diagnostics := by
  intro scope text returned diagnostics
  have plain : '\r' ∉ text.toList := by decide
  have put : String.ofList (withReturns (· % 2 = 0) text.toList) = returned := by decide +kernel
  have failed : scope.compile text = .error diagnostics := by decide +kernel
  refine ⟨plain, put, failed, ?_⟩
  rw [← put, compile_withReturns scope plain]
  exact failed

end Scope

end FilterLang
