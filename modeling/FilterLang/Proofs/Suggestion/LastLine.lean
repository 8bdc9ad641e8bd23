import FilterLang.Suggestion
import FilterLang.Proofs.Query.Row
import FilterLang.Proofs.Schema.Rules
import FilterLang.Proofs.Text.Below

namespace FilterLang

/-!
# Suggestion — the last line, below others

What is suggested depends on the tokens of the last line, and on the fields that the lines above it
leave. For the fields of a valid schema both have a closed form.

* `Scope.IsAvailable` — a field can still be named below some lines; `Scope.get?_catalogBelow_iff`
  says that the catalog lists just these fields.
* `Scope.completions`, `Scope.suggest_below` — the suggestions, said by the lines above and the tokens
  of the last line.
* `Scope.mem_suggest_field_iff` — what is suggested in place of a lone token: the fields that can be
  named and that it is part of.
* `Scope.mem_suggest_constraint_iff` — what is suggested in place of a second token: the constraints
  of the field before it, if it can be named.
-/

/-! ### Tokens and fragments -/

/-- What stands between two spaces of a line, or at one of its ends. -/
structure IsToken (text : String) : Prop where
  no_space : ' ' ∉ text.toList
  no_feed : '\n' ∉ text.toList

/-- A token that can be typed at the end of a text, where a carriage return would be taken for a
part of a line break. -/
structure IsFragment (text : String) : Prop extends IsToken text where
  no_return : '\r' ∉ text.toList

/-- A token without a blank is a fragment. -/
theorem isFragment_of_not_blank {text : String} (h : ∀ c, isBlank c = true → c ∉ text.toList) :
    IsFragment text :=
  ⟨⟨h ' ' (by decide), h '\n' (by decide)⟩, h '\r' (by decide)⟩

/-- The beginning of a fragment is one, too. -/
theorem IsFragment.of_prefix {text whole : String} (h : IsFragment whole)
    (start : text.toList <+: whole.toList) : IsFragment text :=
  ⟨⟨fun hc => h.no_space (start.subset hc), fun hc => h.no_feed (start.subset hc)⟩,
    fun hc => h.no_return (start.subset hc)⟩

/-- So is the spelling of a constraint. -/
theorem Constraint.isFragment_spelling (constraint : Constraint) :
    IsFragment constraint.spelling :=
  ⟨⟨constraint.not_mem_spelling rfl, constraint.not_mem_spelling rfl⟩,
    constraint.not_mem_spelling rfl⟩

/-- A line that ends in a fragment has no carriage return at its end. -/
theorem IsFragment.dropReturn {text : String} (h : IsFragment text) (before : List Char)
    (hb : before.getLast? ≠ some '\r') : dropReturn (before ++ text.toList) = before ++ text.toList := by
  apply dropReturn_eq_self
  intro last
  rw [List.getLast?_append] at last
  cases ht : text.toList.getLast? with
  | none => rw [ht, Option.none_or] at last; exact hb last
  | some c =>
    rw [ht, Option.some_or, Option.some.injEq] at last
    exact h.no_return (last ▸ List.mem_of_getLast? ht)

/-- The last line of a text below another. -/
theorem lastLine_below (earlier : List Char) {last : List Char} (h : '\n' ∉ last) :
    lastLine (earlier ++ '\n' :: last) = (lines earlier, last) := by
  simp [lastLine, List.splitOn_append_cons_self, List.splitOn_eq_singleton h, lines]

namespace Catalog

theorem mem_fields_iff {catalog : Catalog} {field : String} :
    field ∈ catalog.fields ↔ ∃ constraints, catalog.get? field = some constraints := by
  unfold fields get?
  rw [← Option.isSome_iff_exists, Option.isSome_map, List.find?_isSome, List.mem_map]
  simp

end Catalog

namespace Scope

variable {scope : Scope}

/-! ### Fields that can be named -/

/-- A field can be named below some lines: it is declared and some constraint is left for it, no
filter in place uses it, and it is not the first token of a line. -/
structure IsAvailable (scope : Scope) (earlier : List (List Char)) (field : String) : Prop where
  declared : ∃ type, scope.schema.get? field = some type ∧
    scope.blacklist.permitted type.kind ≠ []
  unused : field ∉ Filter.fields scope.inPlace
  unmentioned : ∀ line ∈ earlier, firstToken line ≠ field

/-- The lines mention the fields of which their first tokens are the names. -/
theorem not_mem_mentioned_iff (valid : scope.schema.IsValid) {earlier : List (List Char)}
    {field : String} {type : FieldType} (declared : scope.schema.get? field = some type) :
    field ∉ scope.mentioned earlier ↔ ∀ line ∈ earlier, firstToken line ≠ field := by
  have contained : scope.schema.contains field = true := by rw [Schema.contains, declared]; rfl
  rw [mentioned, List.mem_filter, List.mem_map]
  constructor
  · intro fresh line hl first
    -- an empty line is skipped, but its first token would be no name
    have hne : line ≠ [] := by
      rintro rfl
      exact (valid.keepsRules declared).named first.symm
    exact fresh ⟨⟨line, List.mem_filter.2 ⟨hl, decide_eq_true hne⟩, first⟩, contained⟩
  · rintro fresh ⟨⟨line, hl, first⟩, -⟩
    exact fresh line (List.mem_of_mem_filter hl) first

/-- The catalog below some lines lists the fields that can be named, each with the constraints that
are left for its type. -/
theorem get?_catalogBelow_iff (valid : scope.schema.IsValid) {earlier : List (List Char)}
    {field : String} {constraints : List Constraint} :
    (scope.catalogBelow earlier).get? field = some constraints ↔
      scope.IsAvailable earlier field ∧
        ∃ type, scope.schema.get? field = some type ∧
          scope.blacklist.permitted type.kind = constraints := by
  -- listed with what its kind keeps, unless it is in use or the first token of a line above
  rw [catalogBelow, Catalog.get?_of]
  constructor
  · intro listed
    obtain ⟨type, declared, left⟩ := Option.bind_eq_some_iff.1 listed
    unfold Catalog.remaining? at left
    split at left
    · cases left
    next free =>
    rw [not_or, List.mem_append, not_or, not_mem_mentioned_iff valid declared] at free
    obtain ⟨⟨unused, unmentioned⟩, constrained⟩ := free
    exact ⟨⟨⟨type, declared, constrained⟩, unused, unmentioned⟩, type, declared,
      Option.some.inj left⟩
  · rintro ⟨⟨⟨type, declared, constrained⟩, unused, unmentioned⟩, type', declared', rfl⟩
    obtain rfl : type = type' := Option.some.inj (declared.symm.trans declared')
    rw [declared, Option.bind_some, Catalog.remaining?, if_neg]
    rw [not_or, List.mem_append, not_or, not_mem_mentioned_iff valid declared]
    exact ⟨⟨unused, unmentioned⟩, constrained⟩

/-- So these are the fields of the catalog. -/
theorem mem_fields_catalogBelow_iff (valid : scope.schema.IsValid) {earlier : List (List Char)}
    {field : String} :
    field ∈ (scope.catalogBelow earlier).fields ↔ scope.IsAvailable earlier field := by
  simp only [Catalog.mem_fields_iff, get?_catalogBelow_iff valid]
  constructor
  · rintro ⟨-, available, -⟩
    exact available
  · intro available
    obtain ⟨type, declared, -⟩ := available.declared
    exact ⟨_, available, type, declared, rfl⟩

/-! ### The last line -/

/-- What completes the last token of a line, if a catalog says what can be used. -/
def completions (catalog : Catalog) (line : List Char) : List String :=
  (candidates catalog ((dropReturn line).splitOn ' ')).filter
    (occursIn (((dropReturn line).splitOn ' ').getLast?.getD []) ·.toList)

/-- The suggestions for the last line of a text, by the lines above it. -/
theorem suggest_below (scope : Scope) (earlier : String) {last : String}
    (h : '\n' ∉ last.toList) :
    scope.suggest (earlier ++ "\n" ++ last) =
      completions (scope.catalogBelow (lines earlier.toList)) last.toList := by
  rw [suggest, toList_below, lastLine_below _ h]
  rfl

/-- What completes a lone token: constraints, if it is listed, and fields otherwise. -/
theorem completions_of_not_mem (catalog : Catalog) {token : List Char} (space : ' ' ∉ token)
    (ret : '\r' ∉ token) :
    completions catalog token =
      (((catalog.get? (String.ofList token)).map (List.map (·.spelling))).getD catalog.fields).filter
        (occursIn token ·.toList) := by
  have kept : dropReturn token = token :=
    dropReturn_eq_self fun last => ret (List.mem_of_getLast? last)
  rw [completions, kept, List.splitOn_eq_singleton space, candidates]
  cases catalog.get? (String.ofList token) <;> rfl

/-- A lone token that is no listed field is completed to the fields that it is a part of. -/
theorem completions_of_unlisted {catalog : Catalog} {token : List Char} (space : ' ' ∉ token)
    (ret : '\r' ∉ token) (unlisted : String.ofList token ∉ catalog.fields) :
    completions catalog token = catalog.fields.filter (occursIn token ·.toList) := by
  have missing : catalog.get? (String.ofList token) = none :=
    Option.eq_none_iff_forall_ne_some.2 fun constraints found =>
      unlisted (Catalog.mem_fields_iff.2 ⟨constraints, found⟩)
  rw [completions_of_not_mem catalog space ret, missing]
  rfl

/-- What completes an empty second token: all constraints that are listed for the field before it. -/
theorem completions_append_space (catalog : Catalog) {field : List Char} (space : ' ' ∉ field) :
    completions catalog (field ++ [' ']) =
      ((catalog.get? (String.ofList field)).getD []).map (·.spelling) := by
  have kept : dropReturn (field ++ [' ']) = field ++ [' '] := dropReturn_eq_self (by simp)
  have empty : ∀ text : List Char, occursIn [] text = true := fun text =>
    occursIn_iff.2 List.nil_infix
  rw [completions, kept, List.splitOn_append_cons_self_of_not_mem space, List.splitOn_nil, candidates]
  cases catalog.get? (String.ofList field) <;> simp [empty]

/-- In place of a lone token that is no field to be named, all fields that can be named and that the
token is part of are suggested. -/
theorem mem_suggest_field_iff (valid : scope.schema.IsValid) {earlier fragment : String}
    (h : IsFragment fragment) (free : ¬scope.IsAvailable (lines earlier.toList) fragment)
    {name : String} :
    name ∈ scope.suggest (earlier ++ "\n" ++ fragment) ↔
      scope.IsAvailable (lines earlier.toList) name ∧ fragment.toList <:+: name.toList := by
  have kept := h.dropReturn [] (by simp)
  -- the fragment is no available field, so it is completed as a part of a name
  have unlisted : (scope.catalogBelow (lines earlier.toList)).get? fragment = none := by
    rw [Option.eq_none_iff_forall_ne_some]
    intro constraints listed
    exact free ((get?_catalogBelow_iff valid).1 listed).1
  rw [List.nil_append] at kept
  rw [suggest_below _ _ h.no_feed, completions, kept, List.splitOn_eq_singleton h.no_space,
    List.mem_filter, occursIn_iff, candidates, String.ofList_toList, unlisted,
    mem_fields_catalogBelow_iff valid]
  rfl

/-- In place of a second token, the constraints that are left for the field and that the token is
part of are suggested, if the field can be named. -/
theorem mem_suggest_constraint_iff (valid : scope.schema.IsValid)
    {earlier field fragment : String} (token : IsToken field) (h : IsFragment fragment)
    {text : String} :
    text ∈ scope.suggest (earlier ++ "\n" ++ (field ++ " " ++ fragment)) ↔
      scope.IsAvailable (lines earlier.toList) field ∧
        ∃ type constraint, scope.schema.get? field = some type ∧
          constraint ∈ scope.blacklist.permitted type.kind ∧ text = constraint.spelling ∧
          fragment.toList <:+: text.toList := by
  have letters : (field ++ " " ++ fragment).toList = field.toList ++ ' ' :: fragment.toList := by
    simp
  have feed : '\n' ∉ (field ++ " " ++ fragment).toList := by
    simp [token.no_feed, h.no_feed]
  have kept := h.dropReturn (field.toList ++ [' ']) (by simp)
  rw [List.append_assoc, List.singleton_append] at kept
  rw [suggest_below _ _ feed, completions, letters, kept,
    List.splitOn_append_cons_self_of_not_mem token.no_space, List.splitOn_eq_singleton h.no_space,
    List.mem_filter, occursIn_iff, candidates, String.ofList_toList]
  -- the field is listed exactly when it is available, and its constraints are then completed
  cases listed : (scope.catalogBelow (lines earlier.toList)).get? field with
  | none =>
    simp only [List.not_mem_nil, false_and, false_iff]
    rintro ⟨available, type, -, declared, -⟩
    rw [(get?_catalogBelow_iff valid).2 ⟨available, type, declared, rfl⟩] at listed
    cases listed
  | some constraints =>
    obtain ⟨available, type, declared, rfl⟩ := (get?_catalogBelow_iff valid).1 listed
    rw [List.mem_map]
    constructor
    · rintro ⟨⟨constraint, permitted, rfl⟩, part⟩
      exact ⟨available, type, constraint, declared, permitted, rfl, part⟩
    · rintro ⟨-, type', constraint, declared', permitted, rfl, part⟩
      obtain rfl : type = type' := Option.some.inj (declared.symm.trans declared')
      exact ⟨⟨constraint, permitted, rfl⟩, part⟩

end Scope

end FilterLang
