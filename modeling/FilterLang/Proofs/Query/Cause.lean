import FilterLang.Proofs.Catalog.Rows
import FilterLang.Proofs.Query.Spared
import FilterLang.Proofs.Text.Edit

namespace FilterLang

/-!
# Query — what a diagnostic says

A diagnostic names the first thing that is wrong with its row. What is wrong can be said without the
compiler's own state: by the text of the row, by the rows above it that have no diagnostic, and by what
becomes of the row if its constraint is replaced in the text.

* `Diagnostic.IsSpared` — a row on a field has no diagnostic; `Scope.find?_run_take_iff` says that these
  rows are the ones that are found when a duplicate is looked for.
* `Diagnostic.corrected` — the text with another constraint in a row; `Scope.ofText_corrected` says that
  all other rows stay as they are.
* `Scope.IsLegalSet` — the constraints that a row can have; `Scope.isLegalSet` says that they are those
  which are left for its field.
* `Scope.HasFault`, `Scope.HasFault.unique` — the fault of a row, and that there is just one.
* `Scope.fault_eq_iff_of_compile` — it is what the diagnostic of the row names.
-/

/-- The row at a place starts with a field, and no diagnostic is about it. -/
def Diagnostic.IsSpared (diagnostics : List Diagnostic) (rows : List Line) (field : String) (i : Nat) :
    Prop :=
  ∃ row, rows[i]? = some row ∧ firstToken row.text.toList = field ∧ ∀ d ∈ diagnostics, d.row ≠ i

/-- A line with another second token, if it has one. -/
def Constraint.replaceIn (constraint : Constraint) (line : List Char) : List Char :=
  match line.splitOn ' ' with
  | field :: _ :: tail => [' '].intercalate (field :: constraint.spelling.toList :: tail)
  | _ => line

/-- A text with another constraint in the row that a diagnostic is about. -/
def Diagnostic.corrected (d : Diagnostic) (text : String) (constraint : Constraint) : String :=
  String.ofList (editLine constraint.replaceIn (d.line - 1) text.toList)

/-- The constraints with which the row of a diagnostic would be accepted, said by trying each of them:
the text with this constraint in the row has no diagnostic for it. They stand in the order of the
field's kind, each of them once, and without the one that the row has. -/
structure Scope.IsLegalSet (scope : Scope) (text : String) (d : Diagnostic) (kind : FieldKind)
    (spelling : String) (constraints : List Constraint) : Prop where
  ordered : constraints.Sublist (Constraint.forKind kind)
  nodup : constraints.Nodup
  other : ∀ constraint ∈ constraints, constraint.spelling ≠ spelling
  rows : ∀ constraint, Line.ofText (d.corrected text constraint) =
    (Line.ofText text).set d.row ⟨d.line, String.ofList (constraint.replaceIn d.text.toList)⟩
  exact : ∀ constraint, (∀ e ∈ scope.diagnostics (d.corrected text constraint), e.row ≠ d.row) ↔
    constraint ∈ constraints

/-- The fault of a row with a space, by what is wrong with its parts or with the rows above it. Each
case asks for what the cases before it refuse, so a row has one fault. -/
inductive Scope.HasFault (scope : Scope) (text : String) (diagnostics : List Diagnostic)
    (d : Diagnostic) (row : Row) : RowFault → Prop
  | unknownField (undeclared : scope.schema.get? row.field = none) :
      HasFault scope text diagnostics d row (.unknownField row.field)
  | invalidValue {type : FieldType} {cause : Literal.Fault}
      (declared : scope.schema.get? row.field = some type)
      (refused : Literal.decode type row.literal = .error cause) :
      HasFault scope text diagnostics d row (.invalidValue row.field cause)
  /-- A row above starts with the field and has no diagnostic; there is no other one. -/
  | duplicateField {type : FieldType} {value : Value} {first : Nat}
      (declared : scope.schema.get? row.field = some type)
      (decoded : Literal.decode type row.literal = .ok value) (above : first < d.row)
      (only : ∀ i, Diagnostic.IsSpared diagnostics (Line.ofText text) row.field i ↔ i = first) :
      HasFault scope text diagnostics d row (.duplicateField row.field first)
  | unsupportedConstraint {type : FieldType} {value : Value} {available : List Constraint}
      (declared : scope.schema.get? row.field = some type)
      (decoded : Literal.decode type row.literal = .ok value)
      (fresh : ∀ i < d.row, ¬Diagnostic.IsSpared diagnostics (Line.ofText text) row.field i)
      (legal : scope.IsLegalSet text d type.kind row.constraint available) :
      HasFault scope text diagnostics d row
        (.unsupportedConstraint row.field row.constraint available)

/-! ### Legal sets -/

/-- A part of a list without repetitions is said by its members. -/
theorem filter_mem_of_sublist {part whole : List Constraint} (h : part.Sublist whole)
    (nodup : whole.Nodup) : whole.filter (· ∈ part) = part := by
  induction h with
  | slnil => rfl
  | cons a h ih =>
    rw [List.nodup_cons] at nodup
    have missing := fun ha => nodup.1 (h.subset ha)
    rw [List.filter_cons_of_neg (by simpa using missing), ih nodup.2]
  | cons_cons a h ih =>
    rw [List.nodup_cons] at nodup
    rw [List.filter_cons_of_pos (by simp), List.filter_congr fun b hb => ?_, ih nodup.2]
    have : b ≠ a := fun same => nodup.1 (same ▸ hb)
    simp [this]

/-- The row of a diagnostic has one legal set. -/
theorem Scope.IsLegalSet.unique {scope : Scope} {text : String} {d : Diagnostic} {kind : FieldKind}
    {spelling : String} {these those : List Constraint}
    (h : scope.IsLegalSet text d kind spelling these)
    (h' : scope.IsLegalSet text d kind spelling those) : these = those := by
  rw [← filter_mem_of_sublist h.ordered (Constraint.forKind_nodup kind),
    ← filter_mem_of_sublist h'.ordered (Constraint.forKind_nodup kind)]
  refine List.filter_congr fun constraint _ => ?_
  rw [decide_eq_decide, ← h.exact, ← h'.exact]

/-! ### Rows above -/

namespace Scope

variable {scope : Scope}

/-- A row has no diagnostic if its verdict is a filter. -/
theorem no_diagnostic_iff {text : String} {i : Nat} {row : Line}
    (here : (Line.ofText text)[i]? = some row) :
    (∀ d ∈ scope.diagnostics text, d.row ≠ i) ↔
      ∃ f, (scope.verdicts (Line.ofText text) 0 [])[i]? = some (.ok f) := by
  rw [diagnostics_eq]
  constructor
  · -- there is a verdict for the row, and an error would be a diagnostic with its place
    intro clear
    obtain ⟨verdict, judged⟩ : ∃ verdict, (scope.verdicts (Line.ofText text) 0 [])[i]? =
        some verdict := by
      rw [getElem?_verdicts, here]
      exact ⟨_, rfl⟩
    cases verdict with
    | ok f => exact ⟨f, judged⟩
    | error d =>
      have place := (row_of_getElem?_verdicts judged).1
      exact absurd place (clear d (mem_rejections_iff.2 (place ▸ judged)))
  · rintro ⟨f, accepted⟩ d hd rfl
    rw [mem_rejections_iff, accepted] at hd
    cases hd

section

variable {text : String} {diagnostics : List Diagnostic}

/-- A row is spared if its verdict is a filter on the field. -/
theorem isSpared_iff (failed : scope.compile text = .error diagnostics) {field : String} {i : Nat} :
    Diagnostic.IsSpared diagnostics (Line.ofText text) field i ↔
      ∃ f, (scope.verdicts (Line.ofText text) 0 [])[i]? = some (.ok f) ∧ f.field = field := by
  rw [← diagnostics_of_error failed]
  constructor
  · rintro ⟨row, here, first, clear⟩
    obtain ⟨f, accepted⟩ := (no_diagnostic_iff here).1 clear
    obtain ⟨row', here', stands⟩ := (getElem?_verdicts_eq_ok_iff.1 accepted).1
    obtain rfl : row = row' := Option.some.inj (here.symm.trans here')
    exact ⟨f, accepted, stands.firstToken_eq.symm.trans first⟩
  · rintro ⟨f, accepted, rfl⟩
    obtain ⟨row, here, stands⟩ := (getElem?_verdicts_eq_ok_iff.1 accepted).1
    exact ⟨row, here, stands.firstToken_eq, (no_diagnostic_iff here).2 ⟨f, accepted⟩⟩

/-- What is found for a field among the rows that are accepted before a row is the spared row above it
that starts with this field; there is no other one. -/
theorem find?_run_take_iff (failed : scope.compile text = .error diagnostics) {n i : Nat}
    {field : String} :
    (∃ f, (scope.run ((Line.ofText text).take n) 0 []).find? (·.filter.field = field) =
        some ⟨i, f⟩) ↔
      i < n ∧ Diagnostic.IsSpared diagnostics (Line.ofText text) field i := by
  rw [isSpared_iff failed]
  constructor
  · rintro ⟨f, found⟩
    obtain ⟨above, accepted⟩ := mem_run_take_iff.1 (List.mem_of_find?_eq_some found)
    have same := List.find?_some found
    exact ⟨above, f, accepted, of_decide_eq_true same⟩
  · rintro ⟨above, f, accepted, same⟩
    have here : (⟨i, f⟩ : Accepted) ∈ scope.run ((Line.ofText text).take n) 0 [] :=
      mem_run_take_iff.2 ⟨above, accepted⟩
    cases found : (scope.run ((Line.ofText text).take n) 0 []).find? (·.filter.field = field) with
    | none => simpa [same] using List.find?_eq_none.1 found _ here
    | some other =>
      -- the accepted rows use each field once
      have there := List.mem_of_find?_eq_some found
      have named := List.find?_some found
      have distinct : ((scope.run ((Line.ofText text).take n) 0 []).map (·.filter.field)).Nodup :=
        nodup_fields_run _ _ List.nodup_nil
      obtain rfl := List.inj_on_of_nodup_map distinct there here
        ((of_decide_eq_true named).trans same.symm)
      exact ⟨f, rfl⟩

/-- No accepted row above uses a field if no spared row above stands alone with it. -/
theorem find?_run_take_eq_none_iff (failed : scope.compile text = .error diagnostics) {n : Nat}
    {field : String} :
    (scope.run ((Line.ofText text).take n) 0 []).find? (·.filter.field = field) = none ↔
      ∀ i < n, ¬Diagnostic.IsSpared diagnostics (Line.ofText text) field i := by
  rw [Option.eq_none_iff_forall_ne_some]
  constructor
  · intro none i above spared
    obtain ⟨f, found⟩ := (find?_run_take_iff failed).2 ⟨above, spared⟩
    exact none _ found
  · rintro none ⟨i, f⟩ found
    obtain ⟨above, spared⟩ := (find?_run_take_iff failed).1 ⟨f, found⟩
    exact none i above spared

/-- No two rows that start with the same field are spared. -/
theorem isSpared_unique (failed : scope.compile text = .error diagnostics) {field : String}
    {i j : Nat} (hi : Diagnostic.IsSpared diagnostics (Line.ofText text) field i)
    (hj : Diagnostic.IsSpared diagnostics (Line.ofText text) field j) : i = j := by
  -- after both of them, one row is found for the field
  obtain ⟨f, found⟩ := (find?_run_take_iff failed (n := i + j + 1)).2 ⟨by omega, hi⟩
  obtain ⟨g, again⟩ := (find?_run_take_iff failed (n := i + j + 1)).2 ⟨by omega, hj⟩
  rw [found, Option.some.injEq, Accepted.mk.injEq] at again
  exact again.1

end

/-! ### Another constraint -/

/-- A line with another second token has the first token and the literal that it had. -/
theorem splitOn_replaceIn {line first second : List Char} {tail : List (List Char)}
    (tokens : line.splitOn ' ' = first :: second :: tail) (constraint : Constraint) :
    (constraint.replaceIn line).splitOn ' ' = first :: constraint.spelling.toList :: tail := by
  rw [Constraint.replaceIn, tokens]
  refine List.splitOn_intercalate ' ' ?_ (List.cons_ne_nil _ _)
  have spaceless : ∀ token ∈ line.splitOn ' ', ' ' ∉ token := fun _ => not_mem_of_mem_splitOn
  rw [tokens] at spaceless
  simp only [List.forall_mem_cons] at spaceless ⊢
  exact ⟨spaceless.1, constraint.not_mem_spelling rfl, spaceless.2.2⟩

section

variable {text : String} {d : Diagnostic} {field constraint : String} {tail : List (List Char)}
  {type : FieldType} {value : Value}

/-- The rows of a text with another constraint in one of them: the other rows stay as they are. -/
theorem ofText_corrected (here : (Line.ofText text)[d.row]? = some ⟨d.line, d.text⟩)
    (tokens : d.text.toList.splitOn ' ' = field.toList :: constraint.toList :: tail)
    (decoded : Literal.decode type (String.ofList ([' '].intercalate tail)) = .ok value)
    (other : Constraint) :
    Line.ofText (d.corrected text other) =
      (Line.ofText text).set d.row ⟨d.line, String.ofList (other.replaceIn d.text.toList)⟩ := by
  have line := (Line.mem_lines_of_mem_ofText (List.mem_of_getElem? here)).1
  obtain ⟨feed, ret⟩ := Literal.no_break_of_decode decoded
  rw [String.toList_ofList] at feed ret
  have field_feed : '\n' ∉ field.toList := fun h =>
    not_mem_of_mem_lines line (mem_of_mem_splitOn (tokens ▸ List.mem_cons_self) h)
  have replaced := splitOn_replaceIn tokens other
  have spelling : '\n' ∉ other.spelling.toList := other.not_mem_spelling rfl
  -- the new line has no feed and no return: its tokens are the old ones and a spelling
  have whole : '\n' ∉ other.replaceIn d.text.toList := by
    rw [mem_iff_of_splitOn replaced]
    simp [field_feed, feed, spelling]
  exact Line.ofText_editLine here
    (isPlainLine_of_splitOn replaced whole (other.not_mem_spelling rfl) ret)

-- The line break after the row stays, and so does the rest of the literal.
example :
    let d : Diagnostic := ⟨1, 3, "name  b c", .malformed⟩
    d.corrected "size\n\nname  b c\r\nold" .near = "size\n\nname near b c\r\nold" := by
  decide

/-- With another constraint, a row is accepted if this constraint is listed. -/
theorem judge_replaceIn_iff {accepted : List Accepted}
    (tokens : d.text.toList.splitOn ' ' = field.toList :: constraint.toList :: tail)
    (declared : scope.schema.get? field = some type)
    (decoded : Literal.decode type (String.ofList ([' '].intercalate tail)) = .ok value)
    (fresh : accepted.find? (·.filter.field = field) = none) (other : Constraint) :
    (∃ f, scope.judge accepted (String.ofList (other.replaceIn d.text.toList)) = .ok f) ↔
      (scope.catalogAfter accepted).allows field other = true := by
  have parts : Row.ofText? (String.ofList (other.replaceIn d.text.toList)) =
      some ⟨field, other.spelling, String.ofList ([' '].intercalate tail)⟩ := by
    apply Row.ofText?_of_splitOn
    rw [String.toList_ofList]
    exact splitOn_replaceIn tokens other
  -- the checks before the constraint read the same field and the same literal, and pass again
  rw [judge_of_parts accepted parts]
  simp only [declared, decoded, fresh, Constraint.ofSpelling?_spelling]
  split <;> simp_all

/-- The constraints that are left for the field of a row, once the rows above it have been judged, are
its legal set. -/
theorem isLegalSet (here : (Line.ofText text)[d.row]? = some ⟨d.line, d.text⟩)
    (tokens : d.text.toList.splitOn ' ' = field.toList :: constraint.toList :: tail)
    (declared : scope.schema.get? field = some type)
    (decoded : Literal.decode type (String.ofList ([' '].intercalate tail)) = .ok value)
    {accepted : List Accepted} (above : scope.run ((Line.ofText text).take d.row) 0 [] = accepted)
    (fresh : accepted.find? (·.filter.field = field) = none)
    (unlisted : ∀ other, Constraint.ofSpelling? constraint = some other →
      (scope.catalogAfter accepted).allows field other = false) :
    scope.IsLegalSet text d type.kind constraint
      (((scope.catalogAfter accepted).get? field).getD []) := by
  have ordered : (((scope.catalogAfter accepted).get? field).getD []).Sublist
      (Constraint.forKind type.kind) := by
    rw [catalogAfter, Catalog.getD_get?_of declared]
    split
    · exact List.nil_sublist _
    · exact List.filter_sublist
  have rows := ofText_corrected here tokens decoded
  have inside := (List.getElem?_eq_some_iff.1 here).1
  refine ⟨ordered, ordered.nodup (Constraint.forKind_nodup _), ?_, rows, ?_⟩
  · rintro other listed rfl
    have := unlisted other (Constraint.ofSpelling?_spelling other)
    rw [← Catalog.allows_iff, this] at listed
    cases listed
  · -- the rows above are not changed, so the row is judged after the same accepted rows
    intro other
    have changed : (Line.ofText (d.corrected text other))[d.row]? =
        some ⟨d.line, String.ofList (other.replaceIn d.text.toList)⟩ := by
      rw [rows, List.getElem?_set_self inside]
    rw [no_diagnostic_iff changed, getElem?_verdicts, changed, rows,
      List.take_set_of_le (Nat.le_refl _), above, ← Catalog.allows_iff,
      ← judge_replaceIn_iff tokens declared decoded fresh]
    simp only [Option.map_some, Option.some.injEq, verdict_eq_ok]

end

/-! ### Faults -/

section

variable {text : String} {diagnostics : List Diagnostic} {d : Diagnostic}

/-- A row that is rejected has the fault that is said of it. -/
theorem hasFault_of_judge (failed : scope.compile text = .error diagnostics)
    (here : (Line.ofText text)[d.row]? = some ⟨d.line, d.text⟩)
    (judged : scope.judge (scope.run ((Line.ofText text).take d.row) 0 []) d.text = .error d.fault)
    {field constraint : String} {tail : List (List Char)}
    (tokens : d.text.toList.splitOn ' ' = field.toList :: constraint.toList :: tail) :
    scope.HasFault text diagnostics d
      ⟨field, constraint, String.ofList ([' '].intercalate tail)⟩ d.fault := by
  -- One case per check, in the order in which the row is judged.
  obtain ⟨undeclared, fault⟩ | ⟨type, declared, ⟨cause, refused, fault⟩ | ⟨value, decoded,
    ⟨⟨first, f⟩, found, fault⟩ | ⟨new, fault, unlisted⟩⟩⟩ :=
    fault_of_judge (Row.ofText?_of_splitOn tokens) judged
  · rw [fault]
    exact .unknownField undeclared
  · rw [fault]
    exact .invalidValue declared refused
  · -- what was accepted above is what has no diagnostic, so the place it names is unique
    obtain ⟨above, spared⟩ := (find?_run_take_iff failed).1 ⟨f, found⟩
    rw [fault]
    exact .duplicateField declared decoded above fun i =>
      ⟨fun other => isSpared_unique failed other spared, fun same => same ▸ spared⟩
  · rw [fault]
    exact .unsupportedConstraint declared decoded ((find?_run_take_eq_none_iff failed).1 new)
      (isLegalSet here tokens declared decoded rfl new unlisted)

/-- A row has one fault. -/
theorem HasFault.unique {row : Row} {fault fault' : RowFault}
    (h : scope.HasFault text diagnostics d row fault)
    (h' : scope.HasFault text diagnostics d row fault') : fault = fault' := by
  -- Two different causes contradict each other in a condition of the earlier check.
  cases h with
  | unknownField undeclared => cases h' <;> simp_all
  | invalidValue declared refused => cases h' <;> simp_all
  | duplicateField declared decoded above only =>
    cases h' with
    | duplicateField _ _ _ only' => rw [(only' _).1 ((only _).2 rfl)]
    | unsupportedConstraint _ _ fresh _ => exact absurd ((only _).2 rfl) (fresh _ above)
    | _ => simp_all
  | unsupportedConstraint declared decoded fresh legal =>
    cases h' with
    | duplicateField _ _ above only => exact absurd ((only _).2 rfl) (fresh _ above)
    | unsupportedConstraint declared' _ _ legal' =>
      rw [declared, Option.some.injEq] at declared'
      subst declared'
      rw [legal.unique legal']
    | _ => simp_all

/-- **The cause of a diagnostic.** A diagnostic says that its row is malformed if and only if the row has
no space. Of a row with a space, it names the fault that the row has: an undeclared field, a literal
without a value and its cause, the row above that uses the field, or, if there is none, just those
constraints with which the text would have no diagnostic for this row. -/
theorem fault_eq_iff_of_compile (failed : scope.compile text = .error diagnostics)
    (hd : d ∈ diagnostics) :
    (d.fault = .malformed ↔ ' ' ∉ d.text.toList) ∧
      ∀ (field constraint : String) (tail : List (List Char)),
        d.text.toList.splitOn ' ' = field.toList :: constraint.toList :: tail →
          ∀ fault, d.fault = fault ↔ scope.HasFault text diagnostics d
            ⟨field, constraint, String.ofList ([' '].intercalate tail)⟩ fault := by
  obtain ⟨rejections, -⟩ := compile_eq_error_iff.1 failed
  rw [← rejections] at hd
  have here := (row_of_getElem?_verdicts (mem_rejections_iff.1 hd)).2
  have judged := judge_of_mem_rejections hd
  constructor
  · have malformed : scope.judge (scope.run ((Line.ofText text).take d.row) 0 []) d.text =
        .error .malformed ↔ ' ' ∉ d.text.toList := judge_eq_malformed_iff
    rwa [judged, Except.error.injEq] at malformed
  · intro field constraint tail tokens fault
    -- the fault reported has its cause, and no other fault has one
    have has := hasFault_of_judge failed here judged tokens
    exact ⟨fun same => same ▸ has, fun other => has.unique other⟩

/-- A fault of each kind, on lines that end in different ways. Two constraints cannot be used: one is on a
field that has all others but for a blacklisted one, and one is on a field that is in use. -/
theorem fault_eq_iff_of_compile_each_fault :
    let schema : Schema :=
      ⟨[("name", .of .string), ("size", .of .number), ("old", .of .file)], by decide⟩
    let scope : Scope := ⟨schema, [⟨"old", .present, .bool true⟩], ⟨[.startsWith]⟩⟩
    let text := "size lessThan 1\r\nname near b\r\nold near true\nname\n\nname exists true\n" ++
      "name exists false\r\nsize lessThan x\nages near x"
    let near : Diagnostic := ⟨1, 2, "name near b", .unsupportedConstraint "name" "near"
      [.present, .absent, .equalTo, .notEqualTo, .endsWith, .contains, .containedIn, .notContainedIn]⟩
    let inUse : Diagnostic := ⟨2, 3, "old near true", .unsupportedConstraint "old" "near" []⟩
    let lone : Diagnostic := ⟨3, 4, "name", .malformed⟩
    let again : Diagnostic := ⟨5, 7, "name exists false", .duplicateField "name" 4⟩
    let literal : Diagnostic :=
      ⟨6, 8, "size lessThan x", .invalidValue "size" (.unsupported "x" .number)⟩
    let unknown : Diagnostic := ⟨7, 9, "ages near x", .unknownField "ages"⟩
    let diagnostics := [near, inUse, lone, again, literal, unknown]
    scope.compile text = .error diagnostics ∧ ' ' ∉ lone.text.toList ∧
      scope.HasFault text diagnostics near ⟨"name", "near", "b"⟩ near.fault ∧
      scope.HasFault text diagnostics inUse ⟨"old", "near", "true"⟩ inUse.fault ∧
      scope.HasFault text diagnostics again ⟨"name", "exists", "false"⟩ again.fault ∧
      scope.HasFault text diagnostics literal ⟨"size", "lessThan", "x"⟩ literal.fault ∧
      scope.HasFault text diagnostics unknown ⟨"ages", "near", "x"⟩ unknown.fault := by
  intro schema scope text near inUse lone again literal unknown diagnostics
  have failed : scope.compile text = .error diagnostics := by decide +kernel
  have cause {d : Diagnostic} (hd : d ∈ diagnostics) := fault_eq_iff_of_compile failed hd
  have lone_mem : lone ∈ diagnostics := by simp [diagnostics]
  have near_mem : near ∈ diagnostics := by simp [diagnostics]
  have inUse_mem : inUse ∈ diagnostics := by simp [diagnostics]
  have again_mem : again ∈ diagnostics := by simp [diagnostics]
  have literal_mem : literal ∈ diagnostics := by simp [diagnostics]
  have unknown_mem : unknown ∈ diagnostics := by simp [diagnostics]
  refine ⟨failed, (cause lone_mem).1.1 rfl, ?_, ?_, ?_, ?_, ?_⟩
  · exact ((cause near_mem).2 "name" "near" ["b".toList] (by decide) _).1 rfl
  · exact ((cause inUse_mem).2 "old" "near" ["true".toList] (by decide) _).1 rfl
  · exact ((cause again_mem).2 "name" "exists" ["false".toList] (by decide) _).1 rfl
  · exact ((cause literal_mem).2 "size" "lessThan" ["x".toList] (by decide) _).1 rfl
  · exact ((cause unknown_mem).2 "ages" "near" ["x".toList] (by decide) _).1 rfl

end

end Scope

end FilterLang
