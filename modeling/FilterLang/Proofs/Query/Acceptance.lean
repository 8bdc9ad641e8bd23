import FilterLang.Proofs.Query.Row

namespace FilterLang

/-!
# Query — which rows are accepted

A row is judged after the rows before it, and what it may say depends on which of these have been
accepted. This dependence has a closed form: the fields of accepted rows are those of the rows that
stand alone (`Scope.mem_fields_run`), whether or not each of these rows was accepted itself. So a
row is accepted if it is the first one of its field that stands alone.

* `Scope.step`, `Scope.run` — the accepted rows after one row, and after some rows;
  `Scope.mem_run_take_iff` says which of the rows above a row they are.
* `Scope.AcceptsAs` — the closed form of acceptance; `Scope.verdict_eq_ok_iff` says that it is right.
* `Scope.compile_eq_ok_iff` — the filters of a text are what its rows stand for, each with a field
  of its own.
* `Scope.compile_eq_error_iff` — the diagnostics are the verdicts on all other rows.
* `Scope.compile_row_by_row` — which lines are rows, which rows are accepted, and what is said of the
  others.
-/

namespace Scope

variable {scope : Scope}

/-! ### Judging row after row -/

/-- The verdict on a row, after some rows have been accepted. -/
def verdict (scope : Scope) (accepted : List Accepted) (row : Nat) (line : Line) :
    Except Diagnostic Filter :=
  (scope.judge accepted line.text).mapError (⟨row, line.number, line.text, ·⟩)

/-- The accepted rows after one more row has been judged. -/
def step (scope : Scope) (accepted : List Accepted) (row : Nat) (line : Line) : List Accepted :=
  match scope.judge accepted line.text with
  | .ok filter => accepted ++ [⟨row, filter⟩]
  | .error _ => accepted

/-- The accepted rows after some more rows have been judged. -/
def run (scope : Scope) : List Line → (row : Nat) → List Accepted → List Accepted
  | [], _, accepted => accepted
  | line :: lines, row, accepted => run scope lines (row + 1) (scope.step accepted row line)

/-- A row is judged first, and the others after it has been accepted or not. -/
theorem verdicts_cons (line : Line) (lines : List Line) (row : Nat) (accepted : List Accepted) :
    scope.verdicts (line :: lines) row accepted =
      scope.verdict accepted row line ::
        scope.verdicts lines (row + 1) (scope.step accepted row line) := by
  simp only [verdicts, verdict, step]
  cases scope.judge accepted line.text <;> rfl

@[simp] theorem length_verdicts (lines : List Line) (row : Nat) (accepted : List Accepted) :
    (scope.verdicts lines row accepted).length = lines.length := by
  induction lines generalizing row accepted with
  | nil => rfl
  | cons line lines ih => rw [verdicts_cons, List.length_cons, ih, List.length_cons]

/-- Each row is judged after the rows before it. -/
theorem getElem?_verdicts (lines : List Line) (row : Nat) (accepted : List Accepted) (i : Nat) :
    (scope.verdicts lines row accepted)[i]? =
      lines[i]?.map (scope.verdict (scope.run (lines.take i) row accepted) (row + i)) := by
  induction lines generalizing row accepted i with
  | nil => rfl
  | cons line lines ih =>
    rw [verdicts_cons]
    cases i with
    | zero => rfl
    | succ i =>
      rw [List.getElem?_cons_succ, ih, List.getElem?_cons_succ, List.take_succ_cons, run,
        Nat.add_assoc, Nat.add_comm 1 i]

theorem verdict_eq_ok {accepted : List Accepted} {row : Nat} {line : Line} {f : Filter} :
    scope.verdict accepted row line = .ok f ↔ scope.judge accepted line.text = .ok f := by
  unfold verdict
  cases scope.judge accepted line.text <;> simp

/-- A row that is rejected has a diagnostic with its place, its text and its fault. -/
theorem verdict_eq_error_iff {accepted : List Accepted} {row : Nat} {line : Line}
    {d : Diagnostic} :
    scope.verdict accepted row line = .error d ↔
      ∃ fault, scope.judge accepted line.text = .error fault ∧
        d = ⟨row, line.number, line.text, fault⟩ := by
  unfold verdict
  cases scope.judge accepted line.text <;> simp [eq_comm]

/-- A diagnostic tells where its row stands. -/
theorem place_of_verdict {accepted : List Accepted} {row : Nat} {line : Line} {d : Diagnostic}
    (h : scope.verdict accepted row line = .error d) :
    d.row = row ∧ d.line = line.number ∧ d.text = line.text := by
  obtain ⟨fault, -, rfl⟩ := verdict_eq_error_iff.1 h
  exact ⟨rfl, rfl, rfl⟩

/-! ### Accepted rows -/

/-- No row depends on those below it. -/
theorem verdicts_take (lines : List Line) (row : Nat) (accepted : List Accepted) (n : Nat) :
    scope.verdicts (lines.take n) row accepted = (scope.verdicts lines row accepted).take n := by
  induction lines generalizing row accepted n with
  | nil => simp [verdicts]
  | cons line lines ih =>
    cases n with
    | zero => simp [verdicts]
    | succ n => rw [List.take_succ_cons, verdicts_cons, ih, verdicts_cons, List.take_succ_cons]

/-- A row is accepted with its filter, or not at all. -/
theorem mem_step_iff {accepted : List Accepted} {row : Nat} {line : Line} {a : Accepted} :
    a ∈ scope.step accepted row line ↔
      a ∈ accepted ∨ a.row = row ∧ scope.verdict accepted row line = .ok a.filter := by
  obtain ⟨place, f⟩ := a
  rw [verdict_eq_ok]
  unfold step
  cases judged : scope.judge accepted line.text with
  | ok g => simp [eq_comm]
  | error fault => simp

/-- The accepted rows are those whose verdict is a filter, each with its place. -/
theorem mem_run_iff {lines : List Line} {row : Nat} {accepted : List Accepted} {a : Accepted} :
    a ∈ scope.run lines row accepted ↔
      a ∈ accepted ∨ ∃ i, a.row = row + i ∧
        (scope.verdicts lines row accepted)[i]? = some (.ok a.filter) := by
  -- Induction on the lines, for every list accepted so far: the first of them decides one step.
  induction lines generalizing row accepted with
  | nil => simp [run, verdicts]
  | cons line lines ih =>
    rw [run, ih, mem_step_iff, verdicts_cons, or_assoc]
    refine or_congr_right ⟨?_, ?_⟩
    · rintro (⟨place, here⟩ | ⟨i, place, here⟩)
      · exact ⟨0, place, by rw [List.getElem?_cons_zero, here]⟩
      · exact ⟨i + 1, by omega, by rwa [List.getElem?_cons_succ]⟩
    · rintro ⟨i, place, here⟩
      cases i with
      | zero => exact .inl ⟨place, by simpa using here⟩
      | succ i => exact .inr ⟨i, by omega, by rwa [List.getElem?_cons_succ] at here⟩

/-- The rows that are accepted before a row. -/
theorem mem_run_take_iff {rows : List Line} {n : Nat} {a : Accepted} :
    a ∈ scope.run (rows.take n) 0 [] ↔
      a.row < n ∧ (scope.verdicts rows 0 [])[a.row]? = some (.ok a.filter) := by
  rw [mem_run_iff, verdicts_take]
  simp only [List.not_mem_nil, false_or, Nat.zero_add, List.getElem?_take, exists_eq_left']
  by_cases before : a.row < n <;> simp [before]

/-! ### The fields in use -/

/-- A row that stands alone leaves its field in use: it is accepted, or another row was. -/
theorem mem_fields_step (accepted : List Accepted) (row : Nat) (line : Line) (field : String) :
    field ∈ (scope.step accepted row line).map (·.filter.field) ↔
      field ∈ accepted.map (·.filter.field) ∨
        ∃ f, scope.StandsAs line.text f ∧ f.field = field := by
  unfold step
  cases hj : scope.judge accepted line.text with
  | ok f =>
    -- the accepted row adds its own field
    have stands := (judge_eq_ok_iff.1 hj).1
    rw [stands.exists_field_iff, List.map_append, List.mem_append, List.map_singleton,
      List.mem_singleton, @eq_comm _ field]
  | error fault =>
    -- a row that stands alone is only rejected because its field is in use
    refine ⟨.inl, fun h => h.elim id ?_⟩
    rintro ⟨f, stands, rfl⟩
    by_contra unused
    have accepts := judge_eq_ok_iff.2 ⟨stands, unused⟩
    rw [hj] at accepts
    cases accepts

/-- After some rows, the fields in use are those of the rows that stand alone. -/
theorem mem_fields_run (lines : List Line) (row : Nat) (accepted : List Accepted) (field : String) :
    field ∈ (scope.run lines row accepted).map (·.filter.field) ↔
      field ∈ accepted.map (·.filter.field) ∨
        ∃ line ∈ lines, ∃ f, scope.StandsAs line.text f ∧ f.field = field := by
  induction lines generalizing row accepted with
  | nil => simp [run]
  | cons line lines ih => rw [run, ih, mem_fields_step]; simp [or_assoc]

/-! ### Acceptance -/

/-- The row at place `i` stands alone, and it is the first one of its field that does. -/
def AcceptsAs (scope : Scope) (rows : List Line) (i : Nat) (f : Filter) : Prop :=
  (∃ row, rows[i]? = some row ∧ scope.StandsAs row.text f) ∧
    ∀ earlier ∈ rows.take i, ∀ g, scope.StandsAs earlier.text g → g.field ≠ f.field

/-- The row at place `i` is accepted as some filter. -/
def Accepts (scope : Scope) (rows : List Line) (i : Nat) : Prop :=
  ∃ f, scope.AcceptsAs rows i f

/-- What a row is accepted as. -/
theorem getElem?_verdicts_eq_ok_iff {rows : List Line} {i : Nat} {f : Filter} :
    (scope.verdicts rows 0 [])[i]? = some (.ok f) ↔ scope.AcceptsAs rows i f := by
  have unused : f.field ∉ (scope.run (rows.take i) 0 []).map (·.filter.field) ↔
      ∀ earlier ∈ rows.take i, ∀ g, scope.StandsAs earlier.text g → g.field ≠ f.field := by
    rw [mem_fields_run]
    simp
  -- the row is judged after those before it, whose fields `mem_fields_run` knows
  simp only [getElem?_verdicts, Option.map_eq_some_iff, verdict_eq_ok, judge_eq_ok_iff, unused]
  exact ⟨fun ⟨row, here, stands, first⟩ => ⟨⟨row, here, stands⟩, first⟩,
    fun ⟨⟨row, here, stands⟩, first⟩ => ⟨row, here, stands, first⟩⟩

/-- A row that is not accepted has a diagnostic, which tells where it stands. -/
theorem getElem?_verdicts_eq_error {rows : List Line} {i : Nat} {row : Line}
    (here : rows[i]? = some row) (h : ¬scope.Accepts rows i) :
    ∃ d, (scope.verdicts rows 0 [])[i]? = some (.error d) := by
  cases hv : scope.verdict (scope.run (rows.take i) 0 []) (0 + i) row with
  | error d => exact ⟨d, by rw [getElem?_verdicts, here, Option.map_some, hv]⟩
  | ok f =>
    refine absurd ⟨f, getElem?_verdicts_eq_ok_iff.1 ?_⟩ h
    rw [getElem?_verdicts, here, Option.map_some, hv]

/-! ### Compiling -/

/-- The diagnostic of a verdict. -/
def rejection? : Except Diagnostic Filter → Option Diagnostic
  | .error diagnostic => some diagnostic
  | .ok _ => none

@[simp] theorem rejection?_eq_some_iff {verdict : Except Diagnostic Filter} {d : Diagnostic} :
    rejection? verdict = some d ↔ verdict = .error d := by
  cases verdict <;> simp [rejection?]

/-- Compiling, said of the verdicts on all rows. -/
theorem compile_eq (scope : Scope) (text : String) :
    scope.compile text =
      let verdicts := scope.verdicts (Line.ofText text) 0 []
      let rejected := verdicts.filterMap rejection?
      if rejected = [] then .ok (verdicts.filterMap Except.toOption) else .error rejected := by
  have same : (fun verdict : Except Diagnostic Filter => match verdict with
      | .error diagnostic => some diagnostic
      | .ok _ => none) = rejection? := by
    funext verdict
    cases verdict <;> rfl
  rw [← same]
  rfl

/-- Without a rejection, all verdicts are filters. -/
theorem filterMap_rejection?_eq_nil_iff {verdicts : List (Except Diagnostic Filter)} :
    verdicts.filterMap rejection? = [] ↔ ∃ filters : List Filter, verdicts = filters.map .ok := by
  constructor
  · intro h
    induction verdicts with
    | nil => exact ⟨[], rfl⟩
    | cons verdict verdicts ih =>
      cases verdict with
      | error d => simp [rejection?] at h
      | ok f =>
        obtain ⟨filters, rfl⟩ := ih (by simpa [rejection?] using h)
        exact ⟨f :: filters, rfl⟩
  · rintro ⟨filters, rfl⟩
    rw [List.filterMap_eq_nil_iff]
    intro verdict hv
    obtain ⟨f, -, rfl⟩ := List.mem_map.1 hv
    rfl

theorem filterMap_toOption_map_ok (filters : List Filter) :
    (filters.map (Except.ok : Filter → Except Diagnostic Filter)).filterMap Except.toOption =
      filters := by
  induction filters with
  | nil => rfl
  | cons f filters ih => simpa [Except.toOption] using ih

/-- A text has filters if these are the verdicts on its rows. -/
theorem compile_eq_ok_iff_verdicts {text : String} {filters : List Filter} :
    scope.compile text = .ok filters ↔
      scope.verdicts (Line.ofText text) 0 [] = filters.map .ok := by
  rw [compile_eq]
  simp only
  split
  · next none =>
    obtain ⟨found, h⟩ := filterMap_rejection?_eq_nil_iff.1 none
    rw [h, filterMap_toOption_map_ok, Except.ok.injEq,
      List.map_inj_right fun _ _ => Except.ok.inj]
  · next some =>
    simp only [reduceCtorEq, false_iff]
    exact fun h => some (filterMap_rejection?_eq_nil_iff.2 ⟨filters, h⟩)

/-- A text has diagnostics if these are the verdicts on some of its rows, and there is one at least.
-/
theorem compile_eq_error_iff {text : String} {diagnostics : List Diagnostic} :
    scope.compile text = .error diagnostics ↔
      (scope.verdicts (Line.ofText text) 0 []).filterMap rejection? = diagnostics ∧
        diagnostics ≠ [] := by
  rw [compile_eq]
  simp only
  split
  · next none => simp [none]
  · next some => rw [Except.error.injEq]; exact ⟨fun h => ⟨h, h ▸ some⟩, fun h => h.1⟩

/-- The verdicts on rows are filters if each row stands for its filter, and neither another of these
filters nor an accepted row before them uses the same field. -/
theorem verdicts_eq_map_ok_iff {lines : List Line} {row : Nat} {accepted : List Accepted}
    {filters : List Filter} :
    scope.verdicts lines row accepted = filters.map .ok ↔
      List.Forall₂ (fun line f => scope.StandsAs line.text f) lines filters ∧
        (Filter.fields filters).Nodup ∧
        ∀ f ∈ filters, f.field ∉ accepted.map (·.filter.field) := by
  induction lines generalizing row accepted filters with
  | nil => cases filters <;> simp [verdicts, Filter.fields]
  | cons line lines ih =>
    cases filters with
    | nil => simp [verdicts_cons]
    | cons f filters =>
      rw [verdicts_cons, List.map_cons, List.cons.injEq, verdict_eq_ok, ih, judge_eq_ok_iff,
        List.forall₂_cons]
      -- once the row is accepted, its field is in use for all rows after it
      by_cases stands : scope.StandsAs line.text f
      · simp only [stands, true_and, mem_fields_step, stands.exists_field_iff, not_or,
          Filter.fields, List.map_cons, List.nodup_cons, List.mem_cons, forall_eq_or_imp]
        constructor
        · rintro ⟨new, rest, nodup, others⟩
          refine ⟨rest, ⟨fun twice => ?_, nodup⟩, new, fun g hg => (others g hg).1⟩
          obtain ⟨g, hg, same⟩ := List.mem_map.1 twice
          exact (others g hg).2 same.symm
        · rintro ⟨rest, ⟨once, nodup⟩, new, others⟩
          exact ⟨new, rest, nodup, fun g hg =>
            ⟨others g hg, fun same => once (same ▸ List.mem_map_of_mem hg)⟩⟩
      · simp [stands]

/-- A text has filters if its rows stand for them, each with a field of its own. -/
theorem compile_eq_ok_iff {text : String} {filters : List Filter} :
    scope.compile text = .ok filters ↔
      List.Forall₂ (fun line f => scope.StandsAs line.text f) (Line.ofText text) filters ∧
        (Filter.fields filters).Nodup := by
  rw [compile_eq_ok_iff_verdicts, verdicts_eq_map_ok_iff]
  simp

/-- A diagnostic belongs to the row at whose place it stands. -/
theorem row_of_getElem?_verdicts {rows : List Line} {i : Nat} {d : Diagnostic}
    (h : (scope.verdicts rows 0 [])[i]? = some (.error d)) :
    d.row = i ∧ rows[i]? = some ⟨d.line, d.text⟩ := by
  rw [getElem?_verdicts, Option.map_eq_some_iff] at h
  obtain ⟨row, here, verdict⟩ := h
  obtain ⟨place, line, text⟩ := place_of_verdict verdict
  exact ⟨by omega, by rw [here, line, text]⟩

/-- The row of a diagnostic is the place of its verdict. -/
theorem mem_rejections_iff {rows : List Line} {d : Diagnostic} :
    d ∈ (scope.verdicts rows 0 []).filterMap rejection? ↔
      (scope.verdicts rows 0 [])[d.row]? = some (.error d) := by
  rw [List.mem_filterMap]
  constructor
  · rintro ⟨verdict, hv, hd⟩
    rw [rejection?_eq_some_iff] at hd
    subst hd
    obtain ⟨i, hi⟩ := List.mem_iff_getElem?.1 hv
    rwa [(row_of_getElem?_verdicts hi).1]
  · intro h
    exact ⟨.error d, List.mem_of_getElem? h, rfl⟩

/-- A diagnostic says why its row is rejected, after the rows before it. -/
theorem judge_of_mem_rejections {rows : List Line} {d : Diagnostic}
    (h : d ∈ (scope.verdicts rows 0 []).filterMap rejection?) :
    scope.judge (scope.run (rows.take d.row) 0 []) d.text = .error d.fault := by
  rw [mem_rejections_iff, getElem?_verdicts, Option.map_eq_some_iff] at h
  obtain ⟨row, -, verdict⟩ := h
  obtain ⟨fault, judged, same⟩ := verdict_eq_error_iff.1 verdict
  have text : d.text = row.text := congrArg Diagnostic.text same
  have cause : d.fault = fault := congrArg Diagnostic.fault same
  rw [text, judged, cause]

/-- Diagnostics stand in the order of their rows. -/
theorem pairwise_rejections (rows : List Line) :
    ((scope.verdicts rows 0 []).filterMap rejection?).Pairwise (·.row < ·.row) := by
  rw [List.pairwise_filterMap, List.pairwise_iff_getElem]
  intro i j hi hj lt d hd e he
  rw [rejection?_eq_some_iff] at hd he
  rw [← Option.some.injEq, ← List.getElem?_eq_getElem] at hd he
  have := (row_of_getElem?_verdicts hd).1
  have := (row_of_getElem?_verdicts he).1
  omega

/-- Each filter of a text is what the row at its place is accepted as. -/
theorem acceptsAs_of_compile_eq_ok {text : String} {filters : List Filter}
    (h : scope.compile text = .ok filters) :
    filters.length = (Line.ofText text).length ∧
      ∀ i f, filters[i]? = some f → scope.AcceptsAs (Line.ofText text) i f := by
  rw [compile_eq_ok_iff_verdicts] at h
  constructor
  · simpa using (congrArg List.length h).symm
  · intro i f hf
    rw [← getElem?_verdicts_eq_ok_iff, h, List.getElem?_map, hf, Option.map_some]

/-- The rows that are not accepted are those with a diagnostic. -/
theorem not_accepts_iff_of_compile_eq_error {text : String} {diagnostics : List Diagnostic}
    (h : scope.compile text = .error diagnostics) {i : Nat} (hi : i < (Line.ofText text).length) :
    ¬scope.Accepts (Line.ofText text) i ↔ ∃ d ∈ diagnostics, d.row = i := by
  obtain ⟨rfl, -⟩ := compile_eq_error_iff.1 h
  constructor
  · intro rejected
    obtain ⟨d, hd⟩ := getElem?_verdicts_eq_error (List.getElem?_eq_getElem hi) rejected
    have place := (row_of_getElem?_verdicts hd).1
    exact ⟨d, mem_rejections_iff.2 (place ▸ hd), place⟩
  · rintro ⟨d, hd, rfl⟩ ⟨f, accepts⟩
    rw [mem_rejections_iff] at hd
    rw [← getElem?_verdicts_eq_ok_iff, hd] at accepts
    cases accepts

/-- A text has filters if all of its rows are accepted. -/
theorem exists_filters_iff {text : String} :
    (∃ filters, scope.compile text = .ok filters) ↔
      ∀ i < (Line.ofText text).length, scope.Accepts (Line.ofText text) i := by
  constructor
  · rintro ⟨filters, compiled⟩ i hi
    obtain ⟨length, accepted⟩ := acceptsAs_of_compile_eq_ok compiled
    exact ⟨filters[i], accepted i _ (List.getElem?_eq_getElem (length ▸ hi))⟩
  · intro all
    cases compiled : scope.compile text with
    | ok filters => exact ⟨filters, rfl⟩
    | error diagnostics =>
      -- a diagnostic names a row that is not accepted
      obtain ⟨rfl, some⟩ := compile_eq_error_iff.1 compiled
      obtain ⟨d, hd⟩ := List.exists_mem_of_ne_nil _ some
      have here := (row_of_getElem?_verdicts (mem_rejections_iff.1 hd)).2
      have inside := (List.getElem?_eq_some_iff.1 here).1
      exact absurd (all _ inside)
        ((not_accepts_iff_of_compile_eq_error compiled inside).2 ⟨d, hd, rfl⟩)

/-- **Compiling, row by row.** The rows of a text are its lines without the empty ones, each with its
number among all lines. A row is accepted as a filter if it stands alone as this filter and no row
before it stands alone with the same field. A text has filters if all of its rows are accepted, and
these are what its rows are accepted as. Otherwise it has diagnostics, in the order of its rows: one
for each row that is not accepted, with its place among the rows, its line among all lines and its
text. -/
theorem compile_row_by_row (scope : Scope) (text : String) :
    AreLines text.toList (lines text.toList) ∧
    (Line.ofText text).map (·.text) = ((lines text.toList).filter (· ≠ [])).map String.ofList ∧
    (∀ i row, (Line.ofText text)[i]? = some row →
      1 ≤ row.number ∧ (lines text.toList)[row.number - 1]? = some row.text.toList ∧
        ((lines text.toList).take (row.number - 1)).countP (· ≠ []) = i) ∧
    (∀ i f, (scope.verdicts (Line.ofText text) 0 [])[i]? = some (.ok f) ↔
      scope.AcceptsAs (Line.ofText text) i f) ∧
    ((∃ filters, scope.compile text = .ok filters) ↔
      ∀ i < (Line.ofText text).length, scope.Accepts (Line.ofText text) i) ∧
    (∀ filters, scope.compile text = .ok filters →
      filters.length = (Line.ofText text).length ∧
        ∀ i f, filters[i]? = some f → scope.AcceptsAs (Line.ofText text) i f) ∧
    ∀ diagnostics, scope.compile text = .error diagnostics →
      diagnostics.Pairwise (·.row < ·.row) ∧
        (∀ i < (Line.ofText text).length,
          ¬scope.Accepts (Line.ofText text) i ↔ ∃ d ∈ diagnostics, d.row = i) ∧
        ∀ d ∈ diagnostics, (Line.ofText text)[d.row]? = some ⟨d.line, d.text⟩ ∧
          1 ≤ d.line ∧ (lines text.toList)[d.line - 1]? = some d.text.toList ∧
          ((lines text.toList).take (d.line - 1)).countP (· ≠ []) = d.row := by
  -- the rows of the text, what the verdicts say of them, and then the two outcomes
  refine ⟨areLines_iff.2 rfl, Line.texts_ofText text, fun i row => Line.getElem?_ofText,
    fun i f => getElem?_verdicts_eq_ok_iff, exists_filters_iff,
    fun filters compiled => acceptsAs_of_compile_eq_ok compiled, fun diagnostics failed => ?_⟩
  refine ⟨?_, fun i hi => not_accepts_iff_of_compile_eq_error failed hi, fun d hd => ?_⟩
  · obtain ⟨rfl, -⟩ := compile_eq_error_iff.1 failed
    exact pairwise_rejections _
  · obtain ⟨rfl, -⟩ := compile_eq_error_iff.1 failed
    -- a diagnostic is the verdict at its row, which is where the row was read
    have here := (row_of_getElem?_verdicts (mem_rejections_iff.1 hd)).2
    exact ⟨here, Line.getElem?_ofText here⟩

/-- Some lines are empty and some are ended by a carriage return and a line feed; one row is incomplete
and one uses the field of an accepted row. Without these two rows, the text has filters. -/
theorem compile_row_by_row_mixed :
    let schema : Schema := ⟨[("name", .of .string), ("size", .of .number)], by decide⟩
    let scope : Scope := ⟨schema, [], .builtin⟩
    let text := "\r\nname exists true\r\n\nsize\nname endsWith b\nsize lessThan 2"
    let rows : List Line :=
      [⟨2, "name exists true"⟩, ⟨4, "size"⟩, ⟨5, "name endsWith b"⟩, ⟨6, "size lessThan 2"⟩]
    let diagnostics : List Diagnostic :=
      [⟨1, 4, "size", .malformed⟩, ⟨2, 5, "name endsWith b", .duplicateField "name" 0⟩]
    let shorter := "\r\nname exists true\r\n\n\n\nsize lessThan 2"
    let filters : List Filter :=
      [⟨"name", .present, .bool true⟩, ⟨"size", .lessThan, .number (.ofNat 2)⟩]
    Line.ofText text = rows ∧ AreLines text.toList (lines text.toList) ∧
      ((lines text.toList).filter (· ≠ [])).map String.ofList = rows.map (·.text) ∧
      scope.compile text = .error diagnostics ∧
      scope.AcceptsAs rows 0 ⟨"name", .present, .bool true⟩ ∧ ¬scope.Accepts rows 1 ∧
      ¬scope.Accepts rows 2 ∧ scope.Accepts rows 3 ∧
      ((lines text.toList).take 4).countP (· ≠ []) = 2 ∧
      scope.compile shorter = .ok filters ∧
      ∀ i f, filters[i]? = some f → scope.AcceptsAs (Line.ofText shorter) i f := by
  intro schema scope text rows diagnostics shorter filters
  have written : Line.ofText text = rows := by decide +kernel
  have failed : scope.compile text = .error diagnostics := by decide +kernel
  have compiled : scope.compile shorter = .ok filters := by decide +kernel
  have first : (scope.verdicts (Line.ofText text) 0 [])[0]? =
      some (.ok ⟨"name", .present, .bool true⟩) := by decide +kernel
  obtain ⟨physical, texts, places, accepted, -, -, rejected⟩ := compile_row_by_row scope text
  obtain ⟨-, -, -, -, -, all, -⟩ := compile_row_by_row scope shorter
  obtain ⟨-, missing, -⟩ := rejected diagnostics failed
  rw [written] at texts places accepted missing
  -- the last row has no diagnostic, so it is accepted
  have last : ¬∃ d ∈ diagnostics, d.row = 3 := by decide
  exact ⟨written, physical, texts.symm, failed, (accepted 0 _).1 (written ▸ first),
    (missing 1 (by decide)).2 (by decide), (missing 2 (by decide)).2 (by decide),
    not_not.1 (mt (missing 3 (by decide)).1 last), (places 2 _ rfl).2.2, compiled,
    (all filters compiled).2⟩

end Scope

end FilterLang
