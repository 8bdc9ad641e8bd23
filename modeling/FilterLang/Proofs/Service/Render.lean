import FilterLang.Service
import FilterLang.Proofs.Document.Filter
import FilterLang.Proofs.Query.RoundTrip

namespace FilterLang

/-!
# Service — which lists of filters can be rendered

A list of filters is rendered, compiled again and compared. What this comes to is said without any
text: `Service.render_eq_ok_iff_hasQuery`.

* `Filter.allAgree_iff` — lists agree place by place.
* `Scope.HasQuery.of_allAgree` — query text does not tell apart the two zeros.
* `Service.render_of_parseList` — the answer to a list that is read.
-/

/-! ### Lists that agree -/

/-- Lists agree item by item, and none is longer. -/
theorem Filter.allAgree_iff {as bs : List Filter} :
    allAgree as bs = true ↔ List.Forall₂ (fun a b => a.agrees b = true) as bs := by
  induction as generalizing bs with
  | nil => cases bs <;> simp [allAgree]
  | cons a as ih => cases bs <;> simp [allAgree, ih]

/-- Filters agree in their fields and constraints, and their values agree. -/
theorem Filter.agrees_iff {a b : Filter} :
    a.agrees b = true ↔
      a.field = b.field ∧ a.constraint = b.constraint ∧ a.compareTo.agrees b.compareTo = true := by
  simp [agrees, and_assoc]

theorem Filter.fields_eq_of_allAgree {as bs : List Filter} (h : allAgree as bs = true) :
    fields as = fields bs := by
  rw [allAgree_iff] at h
  induction h with
  | nil => rfl
  | cons same _ ih => exact congrArg₂ List.cons (agrees_iff.1 same).1 ih

namespace Scope

variable {scope : Scope}

/-- A filter has a row if one that it agrees with has one. -/
theorem HasRow.of_agrees {type : FieldType} {a b : Filter} (h : scope.HasRow type a)
    (same : a.agrees b = true) : scope.HasRow type b := by
  obtain ⟨field, constraint, value⟩ := Filter.agrees_iff.1 same
  exact
    { declared := field ▸ h.declared
      unused := field ▸ h.unused
      applies := constraint ▸ h.applies
      allowed := constraint ▸ h.allowed
      no_space := field ▸ h.no_space
      no_feed := field ▸ h.no_feed
      canonical := h.canonical.of_agrees value }

/-- Filters that agree with filters that can be written as query text can be written as well. -/
theorem HasQuery.of_allAgree {as bs : List Filter} (h : scope.HasQuery as)
    (same : Filter.allAgree as bs = true) : scope.HasQuery bs where
  distinct := Filter.fields_eq_of_allAgree same ▸ h.distinct
  rows := by
    have rows := h.rows
    rw [Filter.allAgree_iff] at same
    clear h
    induction same with
    | nil => simp
    | cons first _ ih =>
      obtain ⟨⟨type, row⟩, others⟩ := List.forall_mem_cons.1 rows
      exact List.forall_mem_cons.2 ⟨⟨type, row.of_agrees first⟩, ih others⟩

end Scope

namespace Service

variable {input : String} {schema : Schema} {blacklist : Blacklist} {filters : List Filter}

/-- A list is rendered if its filters have a text that is compiled to them. -/
theorem render_eq_ok_iff_hasQuery (h : Filter.parseList input = .ok filters) :
    render input schema blacklist = .ok (Filter.query filters) ↔
      (scope schema blacklist).HasQuery filters := by
  simp only [render, h]
  constructor
  · intro rendered
    split at rendered
    · next compiled hc =>
      split at rendered
      · -- the filters that are compiled have their query text, and the given ones agree with them
        next same => exact (Scope.hasQuery_of_compile_eq_ok hc).1.of_allAgree same
      · cases rendered
    · cases rendered
  · intro writable
    rw [Scope.compile_query writable (Filter.isRegular_of_parseList h)]
    simp

/-- **Rendering.** A list of filters that is read is rendered as its query text if and only if it can
be written as query text; otherwise it is refused as invalid input. -/
theorem render_of_parseList (h : Filter.parseList input = .ok filters) :
    (render input schema blacklist = .ok (Filter.query filters) ↔
      (scope schema blacklist).HasQuery filters) ∧
    (¬(scope schema blacklist).HasQuery filters →
      ∃ fault, render input schema blacklist = .error (.invalidInput fault)) := by
  have accepts := @render_eq_ok_iff_hasQuery _ schema blacklist _ h
  refine ⟨accepts, fun refused => ?_⟩
  rw [← accepts] at refused
  simp only [render, h] at refused ⊢
  split
  · -- the query compiles, but not to filters that agree, or the list would have been rendered
    split
    · next compiled hc same => simp [hc, same] at refused
    · exact ⟨_, rfl⟩
  · exact ⟨_, rfl⟩

/-- A text with a line break would be a second row, and one that is accepted: the list is refused. -/
theorem render_of_parseList_second_row :
    let schema : Schema := ⟨[("a", .of .string), ("b", .of .string)], by decide⟩
    let filters : List Filter := [⟨"a", .equalTo, .text "x\nb equalTo y"⟩]
    let input :=
      "[\x7b\"field\":\"a\",\"constraint\":\"equalTo\",\"compareTo\":\"x\\nb equalTo y\"\x7d]"
    Filter.parseList input = .ok filters ∧
      ((render input schema .empty = .ok (Filter.query filters) ↔
          (scope schema .empty).HasQuery filters) ∧
        (¬(scope schema .empty).HasQuery filters →
          ∃ fault, render input schema .empty = .error (.invalidInput fault))) ∧
      ¬(scope schema .empty).HasQuery filters := by
  intro schema filters input
  have read : Filter.parseList input = .ok filters := by
    subst filters input
    exact toOption_eq_some_iff.1 (by decide +kernel)
  refine ⟨read, render_of_parseList read, fun writable => ?_⟩
  -- the text has a line feed, which no canonical text has
  obtain ⟨type, row⟩ := writable.rows _ List.mem_cons_self
  exact row.canonical.2.1 (by decide)

end Service

end FilterLang
