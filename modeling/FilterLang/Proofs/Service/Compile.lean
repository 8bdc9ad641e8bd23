import FilterLang.Proofs.Document.ReadBack
import FilterLang.Proofs.Service.Render

namespace FilterLang

/-!
# Service — compiling to JSON and rendering from it

* `Filter.mapM_reread_iff` — a list of filters is read as it was written if and only if each of its
  values survives being written as JSON.
* `Service.render_of_compile` — on the same condition, the filters of a text come back when the answer
  of `compile` is given to `render`.
* `Filter.jsonList_eq_of_allAgree` — lists of filters that agree have the same document.
* `Service.compile_of_render` — so `compile` answers to the query text of `render` with the document of
  the filters that were rendered.
-/

/-! ### Lists that are written and read -/

/-- It does not matter which of two values comes first. -/
theorem Value.agrees_comm (v w : Value) : v.agrees w = w.agrees v := by
  cases v <;> cases w <;> simp [agrees, Double.agrees, eq_comm, Bool.and_comm]

theorem Filter.allAgree_comm (as bs : List Filter) : allAgree as bs = allAgree bs as := by
  induction as generalizing bs with
  | nil => cases bs <;> rfl
  | cons a as ih =>
    cases bs with
    | nil => rfl
    | cons b bs =>
      simp only [allAgree, agrees, ih bs, Value.agrees_comm a.compareTo, eq_comm]

/-- A list of filters is read as it was written if and only if each of its values survives. -/
theorem Filter.mapM_reread_iff {filters : List Filter}
    (regular : ∀ f ∈ filters, f.compareTo.IsRegular) :
    (∃ again, filters.mapM reread = .ok again ∧ allAgree again filters = true) ↔
      ∀ f ∈ filters, f.compareTo.SurvivesJson := by
  -- Induction on the filters: a list is read again exactly when each of its values is.
  induction filters with
  | nil => exact iff_of_true ⟨[], rfl, rfl⟩ (by simp)
  | cons f filters ih =>
    obtain ⟨first, later⟩ := List.forall_mem_cons.1 regular
    rw [List.forall_mem_cons, ← agrees_reread_iff first, ← ih later]
    constructor
    · rintro ⟨again, read, same⟩
      rw [mapM_eq_ok_iff] at read
      cases read with
      | @cons _ g _ others head tail =>
        simp only [allAgree, Bool.and_eq_true] at same
        exact ⟨⟨g, head, same.1⟩, others, mapM_eq_ok_iff.2 tail, same.2⟩
    · rintro ⟨⟨g, head, agrees⟩, others, tail, agree⟩
      refine ⟨g :: others, mapM_eq_ok_iff.2 (.cons head (mapM_eq_ok_iff.1 tail)), ?_⟩
      simp only [allAgree, agrees, agree, Bool.and_self]

namespace Service

variable {schema : Schema} {blacklist : Blacklist} {filters : List Filter}

/-- The answer of `compile` is the document of the filters. -/
theorem eq_of_compile_eq_ok {text : String} {document : Json}
    (h : (scope schema blacklist).compile text = .ok filters)
    (answer : compile text schema blacklist = .ok document) :
    document = (Filter.jsonList filters).sorted := by
  simp only [compile, h] at answer
  exact (Except.ok.inj answer).symm

/-- An answer of `render` is the query text of the filters that are read. -/
theorem of_render_eq_ok {input query : String} (h : render input schema blacklist = .ok query) :
    ∃ read, Filter.parseList input = .ok read ∧ query = Filter.query read ∧
      (scope schema blacklist).HasQuery read := by
  cases parsed : Filter.parseList input with
  | error fault => simp [render, parsed] at h
  | ok read =>
    -- both refusals are errors, so an answer is the query of the list
    have written : query = Filter.query read := by
      simp only [render, parsed] at h
      split at h
      · split at h
        · exact (Except.ok.inj h).symm
        · cases h
      · cases h
    subst written
    exact ⟨read, rfl, rfl, (render_eq_ok_iff_hasQuery parsed).1 h⟩

/-- Filters of a text come back from the document of these filters if and only if each of their values
survives. -/
theorem render_jsonList_iff {text : String}
    (h : (scope schema blacklist).compile text = .ok filters) :
    (∃ query, render (Filter.jsonList filters).sorted.render schema blacklist = .ok query ∧
      ∃ again, (scope schema blacklist).compile query = .ok again ∧
        Filter.allAgree again filters = true) ↔
      ∀ f ∈ filters, f.compareTo.SurvivesJson := by
  obtain ⟨writable, regular⟩ := Scope.hasQuery_of_compile_eq_ok h
  rw [← Filter.mapM_reread_iff regular, ← Filter.parseList_render]
  constructor
  · rintro ⟨query, rendered, again, compiled, same⟩
    obtain ⟨read, parsed, rfl, readable⟩ := of_render_eq_ok rendered
    -- the query text stands for the filters that were read, and for no others
    have back := Scope.compile_query readable (Filter.isRegular_of_parseList parsed)
    obtain rfl := Except.ok.inj (compiled.symm.trans back)
    exact ⟨again, parsed, same⟩
  · rintro ⟨again, parsed, same⟩
    have readable := writable.of_allAgree ((Filter.allAgree_comm _ _).trans same)
    refine ⟨Filter.query again, (render_eq_ok_iff_hasQuery parsed).2 readable, again, ?_, same⟩
    exact Scope.compile_query readable (Filter.isRegular_of_parseList parsed)

/-- **Compiling and rendering.** The text of the document that `compile` answers with is rendered as
query text of the same filters if and only if each of their values survives being written as JSON. -/
theorem render_of_compile {text : String} (h : (scope schema blacklist).compile text = .ok filters) :
    ∃ document, compile text schema blacklist = .ok document ∧
      ((∃ query, render document.render schema blacklist = .ok query ∧
        ∃ again, (scope schema blacklist).compile query = .ok again ∧
          Filter.allAgree again filters = true) ↔
        ∀ f ∈ filters, f.compareTo.SurvivesJson) :=
  ⟨_, by simp only [compile, h], render_jsonList_iff h⟩

/-- Numbers with few digits and dates of this age come back, and the negative zero comes back as
zero. -/
theorem render_of_compile_plain :
    let schema : Schema := ⟨[("n", .of .number), ("m", .of .number), ("d", .of .date)], by decide⟩
    let filters : List Filter :=
      [⟨"n", .lessThan, .number ⟨false, 4607632778762754458, by decide⟩⟩,
        ⟨"m", .equalTo, .number ⟨true, 0, by decide⟩⟩, ⟨"d", .before, .date ⟨1704412800, 0⟩⟩]
    let text := "n lessThan 1.1\nm equalTo -0\nd before 2024-01-05"
    (scope schema .empty).compile text = .ok filters ∧
      (∃ document, compile text schema .empty = .ok document ∧
        ((∃ query, render document.render schema .empty = .ok query ∧
          ∃ again, (scope schema .empty).compile query = .ok again ∧
            Filter.allAgree again filters = true) ↔
          ∀ f ∈ filters, f.compareTo.SurvivesJson)) ∧
      ∀ f ∈ filters, f.compareTo.SurvivesJson := by
  intro schema filters text
  have compiled : (scope schema .empty).compile text = .ok filters := by
    subst schema filters text
    exact toOption_eq_some_iff.1 (by decide +kernel)
  refine ⟨compiled, render_of_compile compiled, ?_⟩
  subst filters
  decide +kernel

/-- A number whose shortest decimal is not exact is changed, and a date after the year 9999 is
refused. -/
theorem render_of_compile_loses :
    let schema : Schema := ⟨[("n", .of .number), ("d", .of .date)], by decide⟩
    let number : List Filter :=
      [⟨"n", .equalTo, .number ⟨false, 4963678596152762776, by decide⟩⟩]
    let date : List Filter := [⟨"d", .before, .date ⟨253402300800, 0⟩⟩]
    (scope schema .empty).compile "n equalTo 7e23" = .ok number ∧
      ¬(∃ document, compile "n equalTo 7e23" schema .empty = .ok document ∧
        ∃ query, render document.render schema .empty = .ok query ∧
          ∃ again, (scope schema .empty).compile query = .ok again ∧
            Filter.allAgree again number = true) ∧
    (scope schema .empty).compile "d before +10000-01-01" = .ok date ∧
      ¬(∃ document, compile "d before +10000-01-01" schema .empty = .ok document ∧
        ∃ query, render document.render schema .empty = .ok query ∧
          ∃ again, (scope schema .empty).compile query = .ok again ∧
            Filter.allAgree again date = true) := by
  intro schema number date
  have compiled : (scope schema .empty).compile "n equalTo 7e23" = .ok number := by
    subst schema number
    exact toOption_eq_some_iff.1 (by decide +kernel)
  have late : (scope schema .empty).compile "d before +10000-01-01" = .ok date := by
    subst schema date
    exact toOption_eq_some_iff.1 (by decide +kernel)
  refine ⟨compiled, ?_, late, ?_⟩
  · -- the answer is the one document there is, and `7e23` does not survive its reading
    rintro ⟨document, answer, back⟩
    obtain rfl := eq_of_compile_eq_ok compiled answer
    have survives := (render_jsonList_iff compiled).1 back
    revert survives
    decide +kernel
  · rintro ⟨document, answer, back⟩
    obtain rfl := eq_of_compile_eq_ok late answer
    have survives := (render_jsonList_iff late).1 back
    revert survives
    decide +kernel

end Service

/-! ### Documents of lists that agree -/

/-- Both zeros are written as the integer zero. -/
theorem Json.ofDouble_of_isZero {d : Double} (h : d.isZero = true) : ofDouble d = .integer 0 := by
  have place : d.magnitude.val = 0 := of_decide_eq_true h
  have size : d.size = 0 := by
    rw [Double.size, place]
    rfl
  have whole : d.whole? = some 0 := by simp [Double.whole?, size]
  rw [ofDouble, whole]
  exact if_pos (by decide)

/-- Both zeros have the same document, and no other numbers agree. -/
theorem Json.ofDouble_eq_of_agrees {a b : Double} (h : a.agrees b = true) :
    ofDouble a = ofDouble b := by
  simp only [Double.agrees, Bool.or_eq_true, decide_eq_true_eq, Bool.and_eq_true] at h
  rcases h with rfl | ⟨first, second⟩
  · rfl
  · rw [ofDouble_of_isZero first, ofDouble_of_isZero second]

/-- Values that agree have the same document. -/
theorem Value.json_eq_of_agrees {v w : Value} (h : v.agrees w = true) : v.json = w.json := by
  unfold agrees at h
  split at h
  · exact Json.ofDouble_eq_of_agrees h
  · rw [of_decide_eq_true h]

/-- Lists of filters that agree have the same document. -/
theorem Filter.jsonList_eq_of_allAgree {as bs : List Filter} (h : allAgree as bs = true) :
    jsonList as = jsonList bs := by
  rw [allAgree_iff] at h
  rw [jsonList, jsonList]
  congr 1
  induction h with
  | nil => rfl
  | cons same _ ih =>
    obtain ⟨field, constraint, value⟩ := agrees_iff.1 same
    rw [List.map_cons, List.map_cons, ih, json, json, field, constraint,
      Value.json_eq_of_agrees value]

namespace Service

variable {schema : Schema} {blacklist : Blacklist}

/-- **Rendering and compiling.** The query text that `render` answers with is compiled, and the answer
is the document of the filters that the input holds. -/
theorem compile_of_render {input text : String} (h : render input schema blacklist = .ok text) :
    ∃ filters, Filter.parseList input = .ok filters ∧
      compile text schema blacklist = .ok (Filter.jsonList filters).sorted := by
  cases parsed : Filter.parseList input with
  | error fault => simp [render, parsed] at h
  | ok filters =>
    refine ⟨filters, rfl, ?_⟩
    simp only [render, parsed] at h
    split at h
    · next compiled hc =>
      split at h
      · -- rendering has compared the compiled filters with those it read, and found them to agree
        next same =>
        obtain rfl := Except.ok.inj h
        simp only [compile, hc, Filter.jsonList_eq_of_allAgree same]
      · cases h
    · cases h

/-- A negative zero, and a date with an offset and digits that do not count. -/
theorem compile_of_render_not_canonical :
    let schema : Schema := ⟨[("n", .of .number), ("d", .of .date)], by decide⟩
    let input :=
      "[\x7b\"field\":\"n\",\"constraint\":\"equalTo\",\"compareTo\":-0.0\x7d," ++
      "\x7b\"field\":\"d\",\"constraint\":\"before\",\"compareTo\":" ++
      "\x7b\"__type\":\"Date\",\"iso\":\"2024-01-05t14:30:00.1239+02:00\"\x7d\x7d]"
    let text := "n equalTo -0\nd before 2024-01-05T12:30:00.123Z"
    render input schema .empty = .ok text ∧
      ∃ filters, Filter.parseList input = .ok filters ∧
        compile text schema .empty = .ok (Filter.jsonList filters).sorted := by
  intro schema input text
  have rendered : render input schema .empty = .ok text := by
    subst schema input text
    exact toOption_eq_some_iff.1 (by decide +kernel)
  exact ⟨rendered, compile_of_render rendered⟩

end Service

end FilterLang
