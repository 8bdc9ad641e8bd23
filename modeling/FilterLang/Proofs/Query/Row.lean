import FilterLang.Suggestion
import FilterLang.Proofs.Outcome
import FilterLang.Proofs.Text.Lines

namespace FilterLang

/-!
# Query — one row by itself

* `Row.ofTokens?` — the parts of a row, said by its tokens; `Row.ofText?_eq` says that this is how
  a row is read.
* `Scope.Offers` — a scope lets a filter be added: its field and its constraint are there to be used.
* `Scope.StandsAs` — what a row says if no other row stands before it.
* `Scope.map_firstToken_eq_fields` — rows start with the fields of what they say.
* `Scope.judge_of_parts` — the checks on a row, in their order; `Scope.fault_of_judge` says what each
  fault means.
* `Scope.judge_eq_ok_iff` — a row is accepted if it stands alone and no accepted row uses its field.
-/

/-! ### Tokens -/

/-- The parts of a row with the given tokens, two at least. The tokens after the second one are the
literal, with the spaces between them. -/
def Row.ofTokens? : List (List Char) → Option Row
  | field :: constraint :: tail =>
    some ⟨String.ofList field, String.ofList constraint, String.ofList ([' '].intercalate tail)⟩
  | _ => none

/-- The parts of a row are read off its tokens. -/
theorem Row.ofText?_eq (text : String) :
    Row.ofText? text = Row.ofTokens? (text.toList.splitOn ' ') := by
  obtain ⟨field, rest, hs⟩ := List.exists_cons_of_ne_nil (List.splitOn_ne_nil ' ' text.toList)
  rw [Row.ofText?, cut_of_splitOn hs, hs]
  cases rest with
  | nil => rfl
  | cons constraint tail =>
    -- what follows the first space is cut again, and its pieces are the other tokens
    have spaceless : ∀ token ∈ constraint :: tail, ' ' ∉ token := fun token h =>
      not_mem_of_mem_splitOn (hs ▸ List.mem_cons_of_mem _ h)
    have again := cut_of_splitOn
      (List.splitOn_intercalate ' ' spaceless (List.cons_ne_nil constraint tail))
    cases tail <;> simp only [List.cons_ne_nil, if_false, if_true, again, Row.ofTokens?] <;> rfl

/-- The parts of a row are its first two tokens, and what follows them. -/
theorem Row.ofText?_of_splitOn {text field constraint : String} {tail : List (List Char)}
    (tokens : text.toList.splitOn ' ' = field.toList :: constraint.toList :: tail) :
    ofText? text = some ⟨field, constraint, String.ofList ([' '].intercalate tail)⟩ := by
  rw [ofText?_eq, tokens, ofTokens?, String.ofList_toList, String.ofList_toList]

/-- What has a space has parts, and the field is what stands before the space. -/
theorem Row.exists_ofText? {text : String} {first rest : List Char}
    (whole : text.toList = first ++ ' ' :: rest) (token : ' ' ∉ first) :
    ∃ constraint literal, ofText? text = some ⟨String.ofList first, constraint, literal⟩ := by
  obtain ⟨second, tail, tokens⟩ := List.exists_cons_of_ne_nil (List.splitOn_ne_nil ' ' rest)
  refine ⟨String.ofList second, String.ofList ([' '].intercalate tail), ?_⟩
  rw [ofText?_eq, whole, List.splitOn_append_cons_self_of_not_mem token, tokens, ofTokens?]

/-- The characters of a row are those of its parts, and spaces. -/
theorem mem_iff_of_splitOn {line first second : List Char} {tail : List (List Char)}
    (tokens : line.splitOn ' ' = first :: second :: tail) {c : Char} :
    c ∈ line ↔ c ∈ first ∨ c = ' ' ∨ c ∈ second ∨ c ∈ [' '].intercalate tail := by
  rw [eq_intercalate_of_splitOn tokens, List.intercalate_cons_cons]
  cases tail with
  | nil => simp
  | cons third tail =>
    rw [List.intercalate_cons_cons]
    simp
    tauto

/-- The field of a row is the first token of its text. -/
theorem Row.field_of_ofText? {text : String} {row : Row} (h : ofText? text = some row) :
    row.field = firstToken text.toList := by
  unfold ofText? at h
  unfold firstToken
  split at h
  · cases h
  · next field rest hc =>
    rw [hc, ← Option.some.inj h]

/-- A row that is written out has the parts that were written. -/
theorem splitOn_line {field constraint : List Char} (hf : ' ' ∉ field) (hc : ' ' ∉ constraint)
    (literal : List Char) :
    (field ++ ' ' :: (constraint ++ ' ' :: literal)).splitOn ' ' =
      field :: constraint :: literal.splitOn ' ' := by
  rw [List.splitOn_append_cons_self_of_not_mem hf, List.splitOn_append_cons_self_of_not_mem hc]

/-- Constraints are spelled with letters. -/
theorem Constraint.not_mem_spelling (constraint : Constraint) {c : Char} (h : c.isAlpha = false) :
    c ∉ constraint.spelling.toList := by
  have letters : constraint.spelling.toList.all Char.isAlpha = true := by
    cases constraint <;> decide
  intro hc
  rw [List.all_eq_true.1 letters c hc] at h
  cases h

/-- No two constraints are spelled alike. -/
theorem Constraint.spelling_injective {a b : Constraint} (h : a.spelling = b.spelling) : a = b := by
  have := ofSpelling?_spelling a
  rw [h, ofSpelling?_spelling, Option.some.injEq] at this
  exact this.symm

namespace Scope

variable {scope : Scope}

/-! ### Rows that stand alone -/

/-- A scope lets a filter on a field of a type be added: the field is declared with that type and
not in use, and the constraint applies to it and is not banned. -/
structure Offers (scope : Scope) (type : FieldType) (f : Filter) : Prop where
  declared : scope.schema.get? f.field = some type
  unused : f.field ∉ Filter.fields scope.inPlace
  applies : f.constraint ∈ Constraint.forKind type.kind
  allowed : scope.blacklist.bans f.constraint = false

/-- What a row says by itself: its first two tokens are the field and the constraint of a filter
that can be added, and the rest of it is a literal of the field's type. -/
def StandsAs (scope : Scope) (text : String) (f : Filter) : Prop :=
  ∃ (type : FieldType) (tail : List (List Char)),
    text.toList.splitOn ' ' = f.field.toList :: f.constraint.spelling.toList :: tail ∧
      scope.Offers type f ∧
      Literal.decode type (String.ofList ([' '].intercalate tail)) = .ok f.compareTo

/-- A row says one thing. -/
theorem StandsAs.unique {text : String} {f g : Filter} (hf : scope.StandsAs text f)
    (hg : scope.StandsAs text g) : f = g := by
  obtain ⟨type, tail, tokens, offers, value⟩ := hf
  obtain ⟨type', tail', tokens', offers', value'⟩ := hg
  rw [tokens] at tokens'
  simp only [List.cons.injEq, String.toList_inj] at tokens'
  obtain ⟨field, constraint, rfl⟩ := tokens'
  -- the field fixes the type, and the type what the literal means
  have same := offers'.declared
  rw [← field, offers.declared, Option.some.injEq] at same
  subst same
  rw [value, Except.ok.injEq] at value'
  obtain ⟨field, first, value⟩ := f
  obtain ⟨field', second, value'⟩ := g
  obtain rfl : first = second := Constraint.spelling_injective constraint
  simp_all

/-- It starts with its field. -/
theorem StandsAs.firstToken_eq {text : String} {f : Filter} (h : scope.StandsAs text f) :
    firstToken text.toList = f.field := by
  obtain ⟨type, tail, tokens, -⟩ := h
  unfold firstToken
  rw [cut_of_splitOn tokens, String.ofList_toList]

/-- So the first tokens of rows are the fields of what they say. -/
theorem map_firstToken_eq_fields {rows : List String} {filters : List Filter}
    (h : List.Forall₂ scope.StandsAs rows filters) :
    rows.map (firstToken ·.toList) = Filter.fields filters := by
  induction h with
  | nil => rfl
  | cons stands _ ih => rw [List.map_cons, ih, stands.firstToken_eq]; rfl

/-- A row uses one field. -/
theorem StandsAs.exists_field_iff {text : String} {f : Filter} (h : scope.StandsAs text f)
    (field : String) : (∃ g, scope.StandsAs text g ∧ g.field = field) ↔ f.field = field :=
  ⟨fun ⟨_, hg, same⟩ => hg.unique h ▸ same, fun same => ⟨f, h, same⟩⟩

/-! ### Judging a row -/

/-- A constraint is listed for a declared field if no filter in place and no accepted row uses the
field, and the constraint applies to it and is not banned. -/
theorem allows_catalogAfter {accepted : List Accepted} {type : FieldType} {field : String}
    (h : scope.schema.get? field = some type) (constraint : Constraint) :
    (scope.catalogAfter accepted).allows field constraint = true ↔
      field ∉ Filter.fields scope.inPlace ∧ field ∉ accepted.map (·.filter.field) ∧
        constraint ∈ scope.blacklist.permitted type.kind := by
  have used : field ∈ Filter.fields (scope.inPlace ++ accepted.map (·.filter)) ↔
      field ∈ Filter.fields scope.inPlace ∨ field ∈ accepted.map (·.filter.field) := by
    simp [Filter.fields]
  -- an entry of the catalog depends on its field alone
  rw [Catalog.allows, catalogAfter, Catalog.get?_of, h, Option.bind_some, Catalog.remaining?]
  simp only [used]
  by_cases hu : field ∈ Filter.fields scope.inPlace ∨ field ∈ accepted.map (·.filter.field)
  · simp only [hu, true_or, if_true, Bool.false_eq_true, false_iff]
    rintro ⟨placed, taken, -⟩
    exact hu.elim placed taken
  · rw [not_or] at hu
    -- a field without constraints is not listed at all
    by_cases none : scope.blacklist.permitted type.kind = []
    · simp [none]
    · simp [hu, none]

/-- The checks on a row, in their order. -/
theorem judge_of_parts (accepted : List Accepted) {text : String} {row : Row}
    (h : Row.ofText? text = some row) :
    scope.judge accepted text =
      match scope.schema.get? row.field with
      | none => .error (.unknownField row.field)
      | some type =>
        match Literal.decode type row.literal with
        | .error cause => .error (.invalidValue row.field cause)
        | .ok value =>
          match accepted.find? (·.filter.field = row.field) with
          | some first => .error (.duplicateField row.field first.row)
          | none =>
            match Constraint.ofSpelling? row.constraint with
            | none => .error (.unsupportedConstraint row.field row.constraint
                (((scope.catalogAfter accepted).get? row.field).getD []))
            | some constraint =>
              if (scope.catalogAfter accepted).allows row.field constraint then
                .ok ⟨row.field, constraint, value⟩
              else .error (.unsupportedConstraint row.field row.constraint
                (((scope.catalogAfter accepted).get? row.field).getD [])) := by
  simp only [judge, h]
  -- each check that fails ends the judgement, so both sides are followed down to it
  cases scope.schema.get? row.field with
  | none => rfl
  | some type =>
    simp only
    cases Literal.decode type row.literal with
    | error cause => rfl
    | ok value =>
      simp only [mapError_ok, bind, Except.bind]
      cases accepted.find? (·.filter.field = row.field) with
      | some first => rfl
      | none =>
        simp only
        cases Constraint.ofSpelling? row.constraint <;> rfl

/-- The faults of a row with a space, in the order of the checks. -/
theorem fault_of_judge {accepted : List Accepted} {text : String} {row : Row}
    (parts : Row.ofText? text = some row) {fault : RowFault}
    (h : scope.judge accepted text = .error fault) :
    scope.schema.get? row.field = none ∧ fault = .unknownField row.field ∨
      ∃ type, scope.schema.get? row.field = some type ∧
        ((∃ cause, Literal.decode type row.literal = .error cause ∧
            fault = .invalidValue row.field cause) ∨
          ∃ value, Literal.decode type row.literal = .ok value ∧
            ((∃ first, accepted.find? (·.filter.field = row.field) = some first ∧
                fault = .duplicateField row.field first.row) ∨
              accepted.find? (·.filter.field = row.field) = none ∧
                fault = .unsupportedConstraint row.field row.constraint
                  (((scope.catalogAfter accepted).get? row.field).getD []) ∧
                ∀ constraint, Constraint.ofSpelling? row.constraint = some constraint →
                  (scope.catalogAfter accepted).allows row.field constraint = false)) := by
  -- the checks are followed in their order, and each of them that passes is kept as a fact
  rw [judge_of_parts accepted parts] at h
  cases declared : scope.schema.get? row.field with
  | none => exact .inl ⟨rfl, by simpa [declared] using h.symm⟩
  | some type =>
    refine .inr ⟨type, rfl, ?_⟩
    simp only [declared] at h
    cases decoded : Literal.decode type row.literal with
    | error cause => exact .inl ⟨cause, rfl, by simpa [decoded] using h.symm⟩
    | ok value =>
      refine .inr ⟨value, rfl, ?_⟩
      simp only [decoded] at h
      cases found : accepted.find? (·.filter.field = row.field) with
      | some first => exact .inl ⟨first, rfl, by simpa [found] using h.symm⟩
      | none =>
        refine .inr ⟨rfl, ?_⟩
        simp only [found] at h
        cases spelled : Constraint.ofSpelling? row.constraint with
        | none => exact ⟨by simpa [spelled] using h.symm, by simp⟩
        | some constraint =>
          simp only [spelled] at h
          split at h
          next listed => cases h
          next unlisted =>
            refine ⟨by simpa using h.symm, fun other same => ?_⟩
            obtain rfl := Option.some.inj same
            exact Bool.eq_false_iff.2 unlisted

/-- A row is malformed if it has no space. -/
theorem judge_eq_malformed_iff {accepted : List Accepted} {text : String} :
    scope.judge accepted text = .error .malformed ↔ ' ' ∉ text.toList := by
  constructor
  · intro judged space
    obtain ⟨first, rest, whole, token⟩ := List.eq_append_cons_of_mem space
    obtain ⟨constraint, literal, parts⟩ := Row.exists_ofText? whole token
    -- a row with parts has another fault
    obtain ⟨-, fault⟩ | ⟨type, -, ⟨cause, -, fault⟩ | ⟨value, -, ⟨first, -, fault⟩ |
      ⟨-, fault, -⟩⟩⟩ := fault_of_judge parts judged <;> cases fault
  · intro space
    have missing : Row.ofText? text = none := by
      rw [Row.ofText?_eq, List.splitOn_eq_singleton space]
      rfl
    rw [judge, missing]
    rfl

/-- The cause of a fault in a literal is what reading some literal of the field's type ends in. -/
theorem decode_of_judge {accepted : List Accepted} {text field : String}
    {cause : Literal.Fault} (h : scope.judge accepted text = .error (.invalidValue field cause)) :
    ∃ type literal, scope.schema.get? field = some type ∧
      Literal.decode type literal = .error cause := by
  -- of all causes, only the literal's has this fault
  cases parts : Row.ofText? text with
  | none => simp only [judge, parts] at h; cases h
  | some row =>
    obtain ⟨-, other⟩ | ⟨type, declared, ⟨_, refused, same⟩ | ⟨_, -, ⟨_, -, other⟩ |
      ⟨-, other, -⟩⟩⟩ := fault_of_judge parts h
    · cases other
    · cases same
      exact ⟨type, row.literal, declared, refused⟩
    · cases other
    · cases other

/-- A row is accepted if it stands alone, unless an accepted row uses its field. -/
theorem judge_eq_ok_iff {accepted : List Accepted} {text : String} {f : Filter} :
    scope.judge accepted text = .ok f ↔
      scope.StandsAs text f ∧ f.field ∉ accepted.map (·.filter.field) := by
  have row := Row.ofText?_eq text
  obtain ⟨first, rest, tokens⟩ := List.exists_cons_of_ne_nil (List.splitOn_ne_nil ' ' text.toList)
  rw [tokens] at row
  cases rest with
  | nil => simp [judge, row, Row.ofTokens?, StandsAs, tokens]
  | cons second tail =>
    rw [judge_of_parts accepted row]
    constructor
    · intro accepts
      -- every check has passed, so that its result is a part of the filter
      split at accepts
      · cases accepts
      next type declared =>
      split at accepts
      · cases accepts
      next value decoded =>
      split at accepts
      · cases accepts
      next new =>
      split at accepts
      · cases accepts
      next constraint spelled =>
      split at accepts
      next listed =>
        cases accepts
        obtain ⟨unused, fresh, permitted⟩ := (allows_catalogAfter declared constraint).1 listed
        rw [Blacklist.mem_permitted] at permitted
        have spelling := Constraint.ofSpelling?_eq_some_iff.1 spelled
        refine ⟨⟨type, tail, ?_, ⟨declared, unused, permitted.1, permitted.2⟩, decoded⟩, fresh⟩
        rw [tokens, ← spelling]
        simp
      · cases accepts
    · rintro ⟨⟨type, tail', tokens', offers, decoded⟩, fresh⟩
      rw [tokens, List.cons.injEq, List.cons.injEq] at tokens'
      obtain ⟨rfl, rfl, rfl⟩ := tokens'
      -- no check can refuse a row whose tokens are those of the filter
      have new : accepted.find? (·.filter.field = f.field) = none := by
        rw [List.find?_eq_none]
        intro a ha same
        exact fresh (List.mem_map.2 ⟨a, ha, of_decide_eq_true same⟩)
      have listed := (allows_catalogAfter offers.declared f.constraint).2
        ⟨offers.unused, fresh, Blacklist.mem_permitted.2 ⟨offers.applies, offers.allowed⟩⟩
      simp [offers.declared, decoded, new, listed]

end Scope

end FilterLang
