import FilterLang.Proofs.Query.Pieces
import FilterLang.Proofs.Query.RoundTrip

namespace FilterLang

/-!
# Query — the rows without a diagnostic

A rejected row leaves no trace: what the other rows of its text say does not depend on it. So they
can be compiled without it, and say the same.

* `Diagnostic.spared` — the rows that no diagnostic is about.
* `Scope.diagnostics`, `Scope.acceptedFilters` — the diagnostics of a text, and the filters of its
  accepted rows; `Scope.length_diagnostics_add` says that each row counts for one of both.
* `Scope.mem_fields_acceptedFilters_iff` — the accepted rows use the fields of all rows that stand
  alone, and `Scope.nodup_fields_acceptedFilters` says that they use each field once.
* `Scope.forall₂_spared` — the spared rows stand for the accepted filters.
* `Scope.compile_spared` — a text of the spared rows has these filters.
-/

/-- The rows that no diagnostic is about. -/
def Diagnostic.spared (diagnostics : List Diagnostic) (rows : List Line) : List Line :=
  (rows.zipIdx.filter fun (_, place) => place ∉ diagnostics.map (·.row)).map Prod.fst

namespace Scope

variable {scope : Scope}

/-- The diagnostics of a text; none, if it has filters. -/
def diagnostics (scope : Scope) (text : String) : List Diagnostic :=
  match scope.compile text with
  | .ok _ => []
  | .error diagnostics => diagnostics

/-- The filters of the accepted rows of a text, whether or not other rows are rejected. -/
def acceptedFilters (scope : Scope) (text : String) : List Filter :=
  (scope.verdicts (Line.ofText text) 0 []).filterMap Except.toOption

/-! ### Rejected rows -/

/-- The diagnostics of a text are its rejected verdicts, none of which a text with filters has. -/
theorem diagnostics_eq (scope : Scope) (text : String) :
    scope.diagnostics text =
      (scope.verdicts (Line.ofText text) 0 []).filterMap rejection? := by
  cases compiled : scope.compile text with
  | ok filters =>
    have verdicts := compile_eq_ok_iff_verdicts.1 compiled
    rw [diagnostics, compiled, eq_comm, filterMap_rejection?_eq_nil_iff]
    exact ⟨filters, verdicts⟩
  | error diagnostics => rw [Scope.diagnostics, compiled, (compile_eq_error_iff.1 compiled).1]

/-- A text that is not compiled has the diagnostics that are given instead. -/
theorem diagnostics_of_error {text : String} {diagnostics : List Diagnostic}
    (h : scope.compile text = .error diagnostics) : scope.diagnostics text = diagnostics := by
  rw [Scope.diagnostics, h]

/-- A verdict is a diagnostic or a filter. -/
theorem length_rejections_add (verdicts : List (Except Diagnostic Filter)) :
    (verdicts.filterMap rejection?).length + (verdicts.filterMap Except.toOption).length =
      verdicts.length := by
  induction verdicts with
  | nil => rfl
  | cons verdict verdicts ih =>
    cases verdict <;>
      simp only [List.filterMap_cons, rejection?, Except.toOption, List.length_cons] <;> omega

/-- Each row of a text has a diagnostic or a filter. -/
theorem length_diagnostics_add (scope : Scope) (text : String) :
    (scope.diagnostics text).length + (scope.acceptedFilters text).length =
      (Line.ofText text).length := by
  rw [diagnostics_eq, acceptedFilters, length_rejections_add, length_verdicts]

/-- A diagnostic is not about a row before those that are judged. -/
theorem le_row_of_mem_rejections {lines : List Line} {row : Nat} {accepted : List Accepted}
    {d : Diagnostic} (h : d ∈ (scope.verdicts lines row accepted).filterMap rejection?) :
    row ≤ d.row := by
  obtain ⟨verdict, hv, hd⟩ := List.mem_filterMap.1 h
  obtain rfl := rejection?_eq_some_iff.1 hd
  obtain ⟨i, hi⟩ := List.mem_iff_getElem?.1 hv
  rw [getElem?_verdicts, Option.map_eq_some_iff] at hi
  obtain ⟨line, -, judged⟩ := hi
  rw [(place_of_verdict judged).1]
  exact Nat.le_add_right row i

/-! ### Accepted rows -/

/-- A row adds its filter to the accepted ones, if it has one. -/
theorem map_filter_step (accepted : List Accepted) (row : Nat) (line : Line) :
    (scope.step accepted row line).map (·.filter) =
      accepted.map (·.filter) ++ (scope.verdict accepted row line).toOption.toList := by
  unfold step verdict
  cases scope.judge accepted line.text <;> simp [Except.toOption]

/-- Rows add the filters that are their verdicts. -/
theorem map_filter_run (lines : List Line) (row : Nat) (accepted : List Accepted) :
    (scope.run lines row accepted).map (·.filter) =
      accepted.map (·.filter) ++ (scope.verdicts lines row accepted).filterMap Except.toOption := by
  induction lines generalizing row accepted with
  | nil => simp [run, verdicts]
  | cons line lines ih =>
    rw [run, ih, map_filter_step, verdicts_cons, List.append_assoc]
    cases scope.verdict accepted row line <;> rfl

/-- After a row, the accepted filters still have fields of their own. -/
theorem nodup_fields_step {accepted : List Accepted}
    (h : (accepted.map (·.filter.field)).Nodup) (row : Nat) (line : Line) :
    ((scope.step accepted row line).map (·.filter.field)).Nodup := by
  unfold step
  cases judged : scope.judge accepted line.text with
  | error fault => exact h
  | ok f =>
    have fresh := (judge_eq_ok_iff.1 judged).2
    rw [List.map_append, List.map_singleton, List.nodup_append]
    refine ⟨h, by simp, ?_⟩
    rintro field hf _ hg rfl
    rw [List.mem_singleton.1 hg] at hf
    exact fresh hf

/-- So they do after all rows. -/
theorem nodup_fields_run (lines : List Line) (row : Nat) {accepted : List Accepted}
    (h : (accepted.map (·.filter.field)).Nodup) :
    ((scope.run lines row accepted).map (·.filter.field)).Nodup := by
  induction lines generalizing row accepted with
  | nil => exact h
  | cons line lines ih => exact ih (row + 1) (nodup_fields_step h row line)

/-- The accepted filters are what is left when all rows have been judged. -/
theorem fields_acceptedFilters (scope : Scope) (text : String) :
    Filter.fields (scope.acceptedFilters text) =
      (scope.run (Line.ofText text) 0 []).map (·.filter.field) := by
  have filters : (scope.run (Line.ofText text) 0 []).map (·.filter) = scope.acceptedFilters text :=
    map_filter_run (Line.ofText text) 0 []
  rw [Filter.fields, ← filters, List.map_map]
  rfl

/-- Accepted rows use each field once. -/
theorem nodup_fields_acceptedFilters (scope : Scope) (text : String) :
    (Filter.fields (scope.acceptedFilters text)).Nodup := by
  rw [fields_acceptedFilters]
  exact nodup_fields_run _ _ List.nodup_nil

/-- They use the fields of all rows that stand alone. -/
theorem mem_fields_acceptedFilters_iff {text field : String} :
    field ∈ Filter.fields (scope.acceptedFilters text) ↔
      ∃ row ∈ (Line.ofText text).map (·.text), ∃ f, scope.StandsAs row f ∧ f.field = field := by
  rw [fields_acceptedFilters, mem_fields_run]
  simp

/-! ### Spared rows -/

/-- Rows whose places no diagnostic names stand for the filters among the verdicts. -/
theorem forall₂_filter_verdicts (lines : List Line) (row : Nat) (accepted : List Accepted) :
    List.Forall₂ (fun line f => scope.StandsAs line.text f)
      (((lines.zipIdx row).filter fun (_, place) =>
        place ∉ ((scope.verdicts lines row accepted).filterMap rejection?).map (·.row)).map
          Prod.fst)
      ((scope.verdicts lines row accepted).filterMap Except.toOption) := by
  induction lines generalizing row accepted with
  | nil => exact .nil
  | cons line lines ih =>
    have later := ih (row + 1) (scope.step accepted row line)
    have lower : ∀ d ∈ (scope.verdicts lines (row + 1) (scope.step accepted row line)).filterMap
        rejection?, row + 1 ≤ d.row := fun d hd => le_row_of_mem_rejections hd
    rw [verdicts_cons, List.zipIdx_cons]
    generalize scope.verdicts lines (row + 1) (scope.step accepted row line) = below
      at later lower ⊢
    cases judged : scope.verdict accepted row line with
    | ok f =>
      -- the diagnostics are those of the rows below, and none of them is about this row
      have spared : row ∉ (below.filterMap rejection?).map (·.row) := by
        intro named
        obtain ⟨d, hd, place⟩ := List.mem_map.1 named
        have := lower d hd
        omega
      have stands := (judge_eq_ok_iff.1 (verdict_eq_ok.1 judged)).1
      rw [List.filter_cons_of_pos (by simpa [rejection?] using spared), List.map_cons]
      exact .cons stands later
    | error d =>
      -- the diagnostic of this row names no row below
      have here := (place_of_verdict judged).1
      rw [List.filter_cons_of_neg (by simp [rejection?, here]),
        List.filter_congr (q := fun (_, place) => place ∉ (below.filterMap rejection?).map (·.row))]
      · exact later
      · rintro ⟨line, place⟩ hp
        have := List.le_snd_of_mem_zipIdx hp
        have : place ≠ d.row := by omega
        simp [rejection?, this]

/-- The spared rows of a text stand for the filters of its accepted rows. -/
theorem forall₂_spared (scope : Scope) (text : String) :
    List.Forall₂ (fun row f => scope.StandsAs row.text f)
      (Diagnostic.spared (scope.diagnostics text) (Line.ofText text))
      (scope.acceptedFilters text) := by
  rw [diagnostics_eq]
  exact forall₂_filter_verdicts (Line.ofText text) 0 []

/-- Spared rows are rows of their text. -/
theorem mem_of_mem_spared {diagnostics : List Diagnostic} {rows : List Line} {row : Line}
    (h : row ∈ Diagnostic.spared diagnostics rows) : row ∈ rows := by
  obtain ⟨⟨_, place⟩, hp, rfl⟩ := List.mem_map.1 h
  exact List.fst_mem_of_mem_zipIdx (List.mem_of_mem_filter hp)

/-- The spared rows can be told apart again when line feeds are put between them. -/
theorem texts_ofText_spared (scope : Scope) (text : String) :
    let spared := (Diagnostic.spared (scope.diagnostics text) (Line.ofText text)).map (·.text)
    (Line.ofText ("\n".intercalate spared)).map (·.text) = spared := by
  intro spared
  apply Line.ofText_intercalate
  intro t ht
  obtain ⟨row, hr, rfl⟩ := List.mem_map.1 ht
  obtain ⟨f, -, stands⟩ := exists_of_forall₂_of_mem (forall₂_spared scope text) hr
  have line := (Line.mem_lines_of_mem_ofText (mem_of_mem_spared hr)).1
  exact stands.isPlainLine (not_mem_of_mem_lines line)

/-- **Deleting the rejected rows.** If a text has diagnostics, a text of its other rows has filters:
one for each of these rows, in their order, with its first token as the field, its second token as
the constraint and the value of its literal. -/
theorem compile_spared {text : String} {diagnostics : List Diagnostic}
    (failed : scope.compile text = .error diagnostics) :
    let spared := Diagnostic.spared diagnostics (Line.ofText text)
    ∃ filters, scope.compile ("\n".intercalate (spared.map (·.text))) = .ok filters ∧
      List.Forall₂ (fun row f => scope.StandsAs row.text f) spared filters := by
  rw [← diagnostics_of_error failed]
  intro spared
  have stand := forall₂_spared scope text
  refine ⟨scope.acceptedFilters text, ?_, stand⟩
  rw [compile_eq_ok_iff_rows, texts_ofText_spared, List.forall₂_map_left_iff]
  exact ⟨stand, nodup_fields_acceptedFilters scope text⟩

/-- A fault of each kind. The rejected rows use fields of accepted ones, before and after them. -/
theorem compile_spared_five_faults :
    let schema : Schema := ⟨[("name", .of .string), ("size", .of .number)], by decide⟩
    let scope : Scope := ⟨schema, [], .builtin⟩
    let text := "name\r\nold exists\nsize lessThan a\n\nname near b\nsize lessThan true\n" ++
      "size exists false\r\nname endsWith  c\r\n"
    let diagnostics : List Diagnostic :=
      [⟨0, 1, "name", .malformed⟩, ⟨1, 2, "old exists", .unknownField "old"⟩,
        ⟨2, 3, "size lessThan a", .invalidValue "size" (.unsupported "a" .number)⟩,
        ⟨3, 5, "name near b", .unsupportedConstraint "name" "near" (Constraint.forKind .string)⟩,
        ⟨5, 7, "size exists false", .duplicateField "size" 4⟩]
    let spared := Diagnostic.spared diagnostics (Line.ofText text)
    scope.compile text = .error diagnostics ∧
      spared.map (·.text) = ["size lessThan true", "name endsWith  c"] ∧
      ∃ filters, scope.compile ("\n".intercalate (spared.map (·.text))) = .ok filters ∧
        List.Forall₂ (fun row f => scope.StandsAs row.text f) spared filters := by
  intro schema scope text diagnostics spared
  have failed : scope.compile text = .error diagnostics := by decide +kernel
  exact ⟨failed, by decide +kernel, compile_spared failed⟩

end Scope

end FilterLang
