import FilterLang.Proofs.Query.Pieces
import FilterLang.Proofs.Query.RoundTrip
import FilterLang.Proofs.Suggestion.LastLine

namespace FilterLang

/-!
# Suggestion — rows typed by what is suggested

A suggestion is judged by the first tokens of the lines above it, and a row by the rows above it
that are accepted. The lines mention at least the fields that the rows use, so that what is
suggested can also be accepted; and what can be accepted on an unmentioned field is suggested.

* `Scope.StandsAs.exists_line` — the field of a row above is the first token of a line above.
* `Scope.not_rejected_of_mem_suggest` — a suggested field has suggestions after it, and a suggested
  constraint completes a row without a diagnostic.
* `Scope.mem_suggest_of_compile` — a row that is accepted is suggested from each of its beginnings.
-/

/-! ### First tokens -/

/-- What follows a text with a separator is no part of its first piece. -/
theorem cut_append_of_mem {sep : Char} {text : List Char} (h : sep ∈ text) (rest : List Char) :
    (cut sep (text ++ rest)).1 = (cut sep text).1 := by
  induction text with
  | nil => simp at h
  | cons c text ih =>
    by_cases hc : c = sep
    · simp [cut, hc]
    · have := ih ((List.mem_cons.1 h).resolve_left (Ne.symm hc))
      simp [cut, hc, this]

theorem dropReturn_prefix (line : List Char) : dropReturn line <+: line := by
  unfold dropReturn
  split
  · exact List.dropLast_prefix line
  · exact List.prefix_rfl

/-- A carriage return after a space is no part of the first token. -/
theorem firstToken_dropReturn {line : List Char} (h : ' ' ∈ dropReturn line) :
    firstToken (dropReturn line) = firstToken line := by
  obtain ⟨rest, hr⟩ := dropReturn_prefix line
  have same := cut_append_of_mem h rest
  rw [hr] at same
  rw [firstToken, firstToken, same]

/-- A line with a space starts as a line of the text, whether or not a line feed ends it. -/
theorem exists_line_of_mem_splitOn {text piece : List Char} (h : piece ∈ text.splitOn '\n')
    (space : ' ' ∈ dropReturn piece) :
    ∃ line ∈ lines text, firstToken line = firstToken (dropReturn piece) := by
  obtain ⟨pieces, last, hs⟩ := exists_last_piece '\n' text
  rw [hs, List.mem_append, List.mem_singleton] at h
  rw [lines_of_splitOn hs]
  rcases h with h | rfl
  · exact ⟨dropReturn piece, List.mem_append_left _ (List.mem_map_of_mem h), rfl⟩
  · -- the last line keeps its carriage return
    have hne : piece ≠ [] := by rintro rfl; simp [dropReturn] at space
    refine ⟨piece, List.mem_append_right _ ?_, (firstToken_dropReturn space).symm⟩
    rw [if_neg hne]
    exact List.mem_singleton_self piece

namespace Scope

variable {scope : Scope}

/-- A row has a space. -/
theorem StandsAs.space_mem {text : String} {f : Filter} (h : scope.StandsAs text f) :
    ' ' ∈ text.toList := by
  obtain ⟨type, tail, tokens, -⟩ := h
  rw [eq_intercalate_of_splitOn tokens, List.intercalate_cons_cons]
  simp

/-- The field of a row above is the first token of a line above. -/
theorem StandsAs.exists_line {earlier piece : List Char} {f : Filter}
    (h : scope.StandsAs (String.ofList (dropReturn piece)) f) (hp : piece ∈ earlier.splitOn '\n') :
    ∃ line ∈ lines earlier, firstToken line = f.field := by
  have space := h.space_mem
  rw [← h.firstToken_eq]
  rw [String.toList_ofList] at space ⊢
  exact exists_line_of_mem_splitOn hp space

/-! ### Rows with a truth value -/

/-- The row of a field, a constraint and the word `true`. -/
theorem line_true (field : String) (constraint : Constraint) :
    field ++ " " ++ constraint.spelling ++ " true" = Filter.line ⟨field, constraint, .bool true⟩ := by
  rw [← String.toList_inj]
  simp [Filter.line, Value.literal, boolText]

/-- A field of a valid schema is a token. -/
theorem isFragment_of_declared (valid : scope.schema.IsValid) {field : String} {type : FieldType}
    (declared : scope.schema.get? field = some type) : IsFragment field :=
  isFragment_of_not_blank fun _ blank => (valid.keepsRules declared).not_mem blank

/-- What such a row stands for can be added to the scope. -/
theorem offers_of_compile_line {field : String} (token : IsToken field) {constraint : Constraint}
    {filters : List Filter}
    (h : scope.compile (field ++ " " ++ constraint.spelling ++ " true") = .ok filters) :
    ∃ type, scope.Offers type ⟨field, constraint, .bool true⟩ := by
  have row : field ++ " " ++ constraint.spelling ++ " true" =
      field ++ " " ++ constraint.spelling ++ " " ++ "true" := by
    rw [← String.toList_inj]
    simp
  rw [row, compile_row_eq_ok_iff token.no_space token.no_feed (by decide)] at h
  obtain ⟨type, value, -, offers, -⟩ := h
  exact ⟨type, offers.declared, offers.unused, offers.applies, offers.allowed⟩

/-! ### Typing by suggestions -/

/-- **Suggestions are safe.** Where the last line is a lone fragment that is no field to be named,
each suggested field has suggestions in turn. Where the last line is a field and a fragment, each
suggested constraint completes a row that has no diagnostic, whatever the rows above it are. -/
theorem not_rejected_of_mem_suggest (valid : scope.schema.IsValid) (earlier : String)
    {fragment : String} (h : IsFragment fragment) :
    (¬scope.IsAvailable (lines earlier.toList) fragment →
      ∀ name ∈ scope.suggest (earlier ++ "\n" ++ fragment),
        scope.suggest (earlier ++ "\n" ++ (name ++ " ")) ≠ []) ∧
    ∀ field, IsToken field →
      ∀ spelling ∈ scope.suggest (earlier ++ "\n" ++ (field ++ " " ++ fragment)),
        let row := field ++ " " ++ spelling ++ " true"
        (Line.ofText (earlier ++ "\n" ++ row)).getLast?.map (·.text) = some row ∧
          ∀ diagnostics, scope.compile (earlier ++ "\n" ++ row) = .error diagnostics →
            ∀ d ∈ diagnostics, d.row + 1 < (Line.ofText (earlier ++ "\n" ++ row)).length := by
  constructor
  · intro free name suggested
    obtain ⟨available, -⟩ := (mem_suggest_field_iff valid h free).1 suggested
    -- some constraint is left for a field that can be named, and the empty token is part of it
    obtain ⟨type, declared, constrained⟩ := available.declared
    obtain ⟨constraint, permitted⟩ := List.exists_mem_of_ne_nil _ constrained
    have token := (isFragment_of_declared valid declared).toIsToken
    have empty : IsFragment "" := ⟨⟨by simp, by simp⟩, by simp⟩
    have suggests := (mem_suggest_constraint_iff valid token empty).2
      ⟨available, type, constraint, declared, permitted, rfl, List.nil_infix⟩
    rw [String.append_empty] at suggests
    exact List.ne_nil_of_mem suggests
  · intro field token spelling suggested
    obtain ⟨available, type, constraint, declared, permitted, rfl, -⟩ :=
      (mem_suggest_constraint_iff valid token h).1 suggested
    rw [Blacklist.mem_permitted] at permitted
    have offers : scope.Offers type ⟨field, constraint, .bool true⟩ :=
      ⟨declared, available.unused, permitted.1, permitted.2⟩
    have row : scope.HasRow type ⟨field, constraint, .bool true⟩ :=
      ⟨offers, token.no_space, token.no_feed, trivial⟩
    rw [line_true]
    apply no_diagnostic_below (row.isPlainLine_line trivial) (row.standsAs_line trivial)
    -- a row above that uses the field is a line above that mentions it
    intro piece hp g stands same
    obtain ⟨line, hl, first⟩ := stands.exists_line hp
    exact available.unmentioned line hl (first.trans same)

/-- Below a row without a constraint, one with a wrong literal and one on an unknown field, which end
in carriage returns. -/
theorem not_rejected_of_mem_suggest_partly_valid :
    let schema : Schema :=
      ⟨[("name", .of .string), ("size", .of .number), ("nickname", .of .string)], by decide⟩
    let scope : Scope := ⟨schema, [⟨"old", .present, .bool true⟩], .builtin⟩
    let earlier := "size\r\n\nsize lessThan many\r\nold exists true\r"
    let row := "nickname" ++ " " ++ "endsWith" ++ " true"
    scope.schema.IsValid ∧ IsFragment "me" ∧ IsFragment "With" ∧ IsToken "nickname" ∧
      ¬scope.IsAvailable (lines earlier.toList) "me" ∧
      "nickname" ∈ scope.suggest (earlier ++ "\n" ++ "me") ∧
      scope.suggest (earlier ++ "\n" ++ ("nickname" ++ " ")) ≠ [] ∧
      "endsWith" ∈ scope.suggest (earlier ++ "\n" ++ ("nickname" ++ " " ++ "With")) ∧
      (∃ diagnostics, scope.compile (earlier ++ "\n" ++ row) = .error diagnostics) ∧
      ∀ diagnostics, scope.compile (earlier ++ "\n" ++ row) = .error diagnostics →
        ∀ d ∈ diagnostics, d.row + 1 < (Line.ofText (earlier ++ "\n" ++ row)).length := by
  intro schema scope earlier row
  have valid : scope.schema.IsValid := by decide
  have me : IsFragment "me" := ⟨⟨by decide, by decide⟩, by decide⟩
  have with' : IsFragment "With" := ⟨⟨by decide, by decide⟩, by decide⟩
  have nickname : IsToken "nickname" := ⟨by decide, by decide⟩
  have free : ¬scope.IsAvailable (lines earlier.toList) "me" := by
    intro available
    obtain ⟨type, declared, -⟩ := available.declared
    exact absurd (Option.isSome_of_eq_some declared) (by decide)
  have field : "nickname" ∈ scope.suggest (earlier ++ "\n" ++ "me") := by decide
  have constraint :
      "endsWith" ∈ scope.suggest (earlier ++ "\n" ++ ("nickname" ++ " " ++ "With")) := by decide
  -- the lines above are wrong in three ways, none of them in the last row
  have rejected : ∃ diagnostics, scope.compile (earlier ++ "\n" ++ row) = .error diagnostics := by
    have failed : (scope.compile (earlier ++ "\n" ++ row)).isOk = false := by decide
    cases compiled : scope.compile (earlier ++ "\n" ++ row) with
    | ok filters => rw [compiled] at failed; cases failed
    | error diagnostics => exact ⟨diagnostics, rfl⟩
  exact ⟨valid, me, with', nickname, free, field,
    (not_rejected_of_mem_suggest valid earlier me).1 free _ field, constraint, rejected,
    ((not_rejected_of_mem_suggest valid earlier with').2 _ nickname _ constraint).2⟩

/-- **Suggestions are complete.** A row of a field, a constraint and a truth value that is accepted
by itself can be typed by suggestions below lines that do not mention the field: the field is
suggested in place of each of its beginnings, unless this is a field to be named itself, and the
constraint in place of each of its beginnings. -/
theorem mem_suggest_of_compile (valid : scope.schema.IsValid) {earlier name : String}
    {constraint : Constraint} {filters : List Filter} (declared : name ∈ scope.schema.names)
    (accepted : scope.compile (name ++ " " ++ constraint.spelling ++ " true") = .ok filters)
    (unmentioned : ∀ line ∈ lines earlier.toList, firstToken line ≠ name) :
    (∀ start : String, start.toList <+: name.toList →
      ¬scope.IsAvailable (lines earlier.toList) start →
        name ∈ scope.suggest (earlier ++ "\n" ++ start)) ∧
    ∀ start : String, start.toList <+: constraint.spelling.toList →
      constraint.spelling ∈ scope.suggest (earlier ++ "\n" ++ (name ++ " " ++ start)) := by
  obtain ⟨_, found⟩ : ∃ type, scope.schema.get? name = some type := by
    rw [← Option.isSome_iff_exists]
    exact Schema.contains_iff.2 declared
  have fragment := isFragment_of_declared valid found
  obtain ⟨type, offers⟩ := offers_of_compile_line fragment.toIsToken accepted
  have permitted : constraint ∈ scope.blacklist.permitted type.kind :=
    Blacklist.mem_permitted.2 ⟨offers.applies, offers.allowed⟩
  -- the accepted row offers the field, and no line above mentions it: it is available there
  have available : scope.IsAvailable (lines earlier.toList) name :=
    ⟨⟨type, offers.declared, List.ne_nil_of_mem permitted⟩, offers.unused, unmentioned⟩
  constructor
  · intro start beginning free
    exact (mem_suggest_field_iff valid (fragment.of_prefix beginning) free).2
      ⟨available, beginning.isInfix⟩
  · intro start beginning
    exact (mem_suggest_constraint_iff valid fragment.toIsToken
      (constraint.isFragment_spelling.of_prefix beginning)).2
      ⟨available, type, constraint, offers.declared, permitted, rfl, beginning.isInfix⟩

/-- A field whose name starts with that of another one, which a line above mentions. -/
theorem mem_suggest_of_compile_longer_name :
    let schema : Schema := ⟨[("name", .of .string), ("nameOf", .of .string)], by decide⟩
    let scope : Scope := ⟨schema, [⟨"old", .present, .bool true⟩], .builtin⟩
    let earlier := "old exists true\n\nname"
    scope.schema.IsValid ∧ "nameOf" ∈ scope.schema.names ∧
      scope.compile ("nameOf" ++ " " ++ Constraint.startsWith.spelling ++ " true") =
        .ok [⟨"nameOf", .startsWith, .bool true⟩] ∧
      (∀ line ∈ lines earlier.toList, firstToken line ≠ "nameOf") ∧
      "name".toList <+: "nameOf".toList ∧ ¬scope.IsAvailable (lines earlier.toList) "name" ∧
      "nameOf" ∈ scope.suggest (earlier ++ "\n" ++ "name") ∧
      "sta".toList <+: Constraint.startsWith.spelling.toList ∧
      "startsWith" ∈ scope.suggest (earlier ++ "\n" ++ ("nameOf" ++ " " ++ "sta")) := by
  intro schema scope earlier
  have valid : scope.schema.IsValid := by decide
  have declared : "nameOf" ∈ scope.schema.names := by decide
  have accepted : scope.compile ("nameOf" ++ " " ++ Constraint.startsWith.spelling ++ " true") =
      .ok [⟨"nameOf", .startsWith, .bool true⟩] := by decide
  have unmentioned : ∀ line ∈ lines earlier.toList, firstToken line ≠ "nameOf" := by decide
  have name : "name".toList <+: "nameOf".toList := by decide
  have sta : "sta".toList <+: Constraint.startsWith.spelling.toList := by decide
  have free : ¬scope.IsAvailable (lines earlier.toList) "name" := fun available =>
    available.unmentioned "name".toList (by decide) (by decide)
  obtain ⟨fields, constraints⟩ := mem_suggest_of_compile valid declared accepted unmentioned
  exact ⟨valid, declared, accepted, unmentioned, name, free, fields "name" name free, sta,
    constraints "sta" sta⟩

end Scope

end FilterLang
