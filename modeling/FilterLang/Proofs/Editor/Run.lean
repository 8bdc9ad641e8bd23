import FilterLang.Editor
import FilterLang.Proofs.Query.Pieces
import FilterLang.Proofs.Query.RoundTrip

namespace FilterLang

/-!
# Editor — the applied filters over a run of edits

Filters are applied a text at a time, each text judged by the filters before it, and they are
removed one by one or all at once. Through all of this they stay filters that query text can say, so
that an editor can be reopened at any time without loss.

* `Scope.Writable` — filters that come back from their query text; `Writable.append` says that
  filters may be written below others that are in place for them.
* `Edit`, `Editor.run` — changes to the applied filters, and runs of them; `Editor.applied_enter`
  says which filters a text adds.
* `Editor.CanReopen` — the invariant; `CanReopen.edit` is its step and `CanReopen.run` its run.
* `Editor.compile_query_run` — what is applied after a run is what its query text says.
-/

namespace Scope

variable {scope : Scope} {filters earlier later : List Filter}

/-! ### Filters that come back -/

/-- Filters that can be written as query text and read from it again. -/
structure Writable (scope : Scope) (filters : List Filter) : Prop
    extends scope.HasQuery filters where
  regular : ∀ f ∈ filters, f.compareTo.IsRegular

theorem Writable.compile_query (h : scope.Writable filters) :
    scope.compile (Filter.query filters) = .ok filters :=
  Scope.compile_query h.toHasQuery h.regular

/-- All filters of a text can be written. -/
theorem writable_of_compile_eq_ok {text : String} (h : scope.compile text = .ok filters) :
    scope.Writable filters :=
  ⟨(hasQuery_of_compile_eq_ok h).1, (hasQuery_of_compile_eq_ok h).2⟩

/-- A row that can be written while more filters are in place can be written without them. -/
theorem HasRow.of_after {type : FieldType} {f : Filter} (h : (scope.after earlier).HasRow type f) :
    scope.HasRow type f ∧ f.field ∉ Filter.fields earlier :=
  have ⟨offers, fresh⟩ := offers_after_iff.1 h.toOffers
  ⟨⟨offers, h.no_space, h.no_feed, h.canonical⟩, fresh⟩

/-- Filters can be written below others if they can while those are in place. -/
theorem Writable.append (above : scope.Writable earlier)
    (below : (scope.after earlier).Writable later) : scope.Writable (earlier ++ later) where
  distinct := by
    refine Filter.nodup_fields_append_iff.2 ⟨above.distinct, below.distinct, ?_⟩
    -- a later row is on a field that the earlier filters left in the catalog
    intro f hf
    obtain ⟨type, row⟩ := below.rows f hf
    exact row.of_after.2
  rows := by
    intro f hf
    rcases List.mem_append.1 hf with hf | hf
    · exact above.rows f hf
    · obtain ⟨type, row⟩ := below.rows f hf
      exact ⟨type, row.of_after.1⟩
  regular f hf := (List.mem_append.1 hf).elim (above.regular f) (below.regular f)

/-- Filters can be left out. -/
theorem Writable.of_sublist {others : List Filter} (h : scope.Writable filters)
    (sub : others.Sublist filters) : scope.Writable others where
  distinct := h.distinct.sublist (sub.map _)
  rows f hf := h.rows f (sub.subset hf)
  regular f hf := h.regular f (sub.subset hf)

end Scope

/-- A change to the applied filters. -/
inductive Edit where
  /-- A text is typed, and its filters are applied unless it has a fault. -/
  | enter (text : String)
  /-- The filter at a place is removed; without such a filter, nothing changes. -/
  | remove (index : Nat)
  /-- All filters are removed. -/
  | clear
deriving Repr

namespace Editor

variable {e : Editor}

/-- The editor after an edit. -/
def edit (e : Editor) : Edit → Editor
  | .enter text => (e.wipe.typed text).commit
  | .remove index => e.without index
  | .clear => e.clear

/-- The editor after some edits. -/
def run (e : Editor) (edits : List Edit) : Editor := edits.foldl edit e

/-! ### What an edit changes -/

/-- What query text is judged by if no filter is applied. -/
def base (e : Editor) : Scope := ⟨e.schema, [], e.blacklist⟩

/-- An entered text is judged with all applied filters in place. Its filters come after them; a text
with a fault adds nothing. -/
theorem applied_enter (e : Editor) (text : String) :
    (e.edit (.enter text)).applied =
      e.applied ++ ((e.base.after e.applied).compile text).toOption.getD [] := by
  have checked : (e.wipe.typed text).check = (e.base.after e.applied).compile text := by
    show (e.base.after e.applied).compile ("" ++ text) = _
    rw [String.empty_append]
  show (e.wipe.typed text).commit.applied = _
  unfold commit
  rw [checked]
  cases (e.base.after e.applied).compile text with
  | ok added => rfl
  | error diagnostics => exact (List.append_nil e.applied).symm

/-- No edit changes what filters are judged by at the start. -/
@[simp] theorem base_edit (e : Editor) (edit : Edit) : (e.edit edit).base = e.base := by
  cases edit with
  | enter text =>
    show (e.wipe.typed text).commit.base = e.base
    unfold commit
    cases (e.wipe.typed text).check <;> rfl
  | remove index => rfl
  | clear => rfl

@[simp] theorem base_run (e : Editor) (edits : List Edit) : (e.run edits).base = e.base := by
  induction edits generalizing e with
  | nil => rfl
  | cons edit edits ih => exact (ih (e.edit edit)).trans (e.base_edit edit)

/-! ### The invariant -/

/-- The applied filters can be turned into text and applied again. -/
def CanReopen (e : Editor) : Prop := e.base.Writable e.applied

/-- An edit keeps the applied filters writable. -/
theorem CanReopen.edit (h : e.CanReopen) (edit : Edit) : (e.edit edit).CanReopen := by
  unfold CanReopen
  rw [base_edit]
  -- One case per edit: only `enter` adds filters, and those were compiled in the scope after the
  -- ones there are. The other two keep a sublist.
  cases edit with
  | enter text =>
    rw [applied_enter]
    cases judged : (e.base.after e.applied).compile text with
    | ok added => exact Scope.Writable.append h (Scope.writable_of_compile_eq_ok judged)
    | error diagnostics =>
      show e.base.Writable (e.applied ++ [])
      rw [List.append_nil]
      exact h
  | remove index => exact Scope.Writable.of_sublist h (List.eraseIdx_sublist _ _)
  | clear => exact Scope.Writable.of_sublist h (List.nil_sublist _)

/-- So does a run of edits. -/
theorem CanReopen.run (h : e.CanReopen) (edits : List Edit) : (e.run edits).CanReopen := by
  induction edits generalizing e with
  | nil => exact h
  | cons edit edits ih => exact ih (h.edit edit)

/-- Without filters, there is nothing to come back. -/
theorem canReopen_start (schema : Schema) (blacklist : Blacklist) :
    (start schema blacklist []).CanReopen :=
  ⟨⟨List.nodup_nil, by simp [start]⟩, by simp [start]⟩

/-- **Reopening after any run.** Whatever has been entered, removed and cleared, the applied filters
have fields of their own, and the query text of these filters has exactly these filters. A further
text adds the filters that it has with those in place. -/
theorem compile_query_run (schema : Schema) (blacklist : Blacklist) (edits : List Edit) :
    let e := (start schema blacklist []).run edits
    (Filter.fields e.applied).Nodup ∧
      (⟨schema, [], blacklist⟩ : Scope).compile (Filter.query e.applied) = .ok e.applied ∧
      ∀ text, (e.edit (.enter text)).applied =
        e.applied ++ ((⟨schema, e.applied, blacklist⟩ : Scope).compile text).toOption.getD [] := by
  intro e
  have same : e.base = ⟨schema, [], blacklist⟩ := base_run _ _
  have writable : e.base.Writable e.applied := (canReopen_start schema blacklist).run edits
  rw [same] at writable
  refine ⟨writable.distinct, writable.compile_query, ?_⟩
  intro text
  rw [applied_enter, same]
  rfl

-- A field can be entered again once its filter is gone, and a rejected text changes nothing.
example :
    let schema : Schema := ⟨[("name", .of .string), ("old", .of .boolean)], by decide⟩
    let edits : List Edit :=
      [.enter "name equalTo A\nold equalTo false", .remove 0, .remove 7, .enter "old exists true",
        .enter "name startsWith  B"]
    ((start schema .builtin []).run edits).applied =
      [⟨"old", .equalTo, .bool false⟩, ⟨"name", .startsWith, .text " B"⟩] := by
  rfl

end Editor

end FilterLang
