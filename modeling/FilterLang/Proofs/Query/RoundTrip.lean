import FilterLang.Proofs.Query.Acceptance
import FilterLang.Proofs.Query.Literal

namespace FilterLang

/-!
# Query — filters written as rows

* `Scope.HasRow`, `Scope.HasQuery` — filters that can be written as rows of query text.
* `Scope.StandsAs.isPlainLine` — a line that stands for a filter can stand anywhere in a text.
* `Scope.hasQuery_of_compile_eq_ok` — the filters of a text can be written.
* `Scope.compile_query` — what is written for such filters has these filters.
* `Scope.compile_query_of_compile` — so the filters of a text are those of their own query text.
-/

namespace Scope

variable {scope : Scope}

/-- A filter on a field of a type can be written as a row: it can be added, the name of its field is
one token on one line, and its value is one that a literal means. -/
structure HasRow (scope : Scope) (type : FieldType) (f : Filter) : Prop
    extends scope.Offers type f where
  no_space : ' ' ∉ f.field.toList
  no_feed : '\n' ∉ f.field.toList
  canonical : f.compareTo.IsCanonical type

/-- Filters can be written as query text: each as a row, and each with a field of its own. -/
structure HasQuery (scope : Scope) (filters : List Filter) : Prop where
  distinct : (Filter.fields filters).Nodup
  rows : ∀ f ∈ filters, ∃ type, scope.HasRow type f

/-! ### A row -/

theorem toList_line (f : Filter) :
    f.line.toList =
      f.field.toList ++ ' ' :: (f.constraint.spelling.toList ++ ' ' :: f.compareTo.literal.toList) := by
  simp [Filter.line]

/-- The row of a filter stands for it. -/
theorem HasRow.standsAs_line {type : FieldType} {f : Filter} (h : scope.HasRow type f)
    (regular : f.compareTo.IsRegular) : scope.StandsAs f.line f := by
  refine ⟨type, f.compareTo.literal.toList.splitOn ' ', ?_, h.toOffers, ?_⟩
  · rw [toList_line, splitOn_line h.no_space (f.constraint.not_mem_spelling rfl)]
  · rw [List.intercalate_splitOn, String.ofList_toList]
    exact Literal.decode_literal h.canonical regular

/-- A line of two tokens at least can stand anywhere in a text, if no carriage return comes after the
first of them. -/
theorem isPlainLine_of_splitOn {line first second : List Char} {tail : List (List Char)}
    (tokens : line.splitOn ' ' = first :: second :: tail) (feed : '\n' ∉ line) (ret : '\r' ∉ second)
    (ret' : '\r' ∉ [' '].intercalate tail) : IsPlainLine line := by
  -- a space stands in the line, and nothing after it is a return
  obtain ⟨rest, joined, clean⟩ : ∃ rest, line = first ++ ' ' :: rest ∧ '\r' ∉ rest := by
    refine ⟨[' '].intercalate (second :: tail), ?_, ?_⟩
    · rw [eq_intercalate_of_splitOn tokens, List.intercalate_cons_cons, List.append_assoc,
        List.singleton_append]
    · cases tail with
      | nil => simpa using ret
      | cons => rw [List.intercalate_cons_cons]; simp_all
  refine ⟨by simp [joined], feed, fun last => ?_⟩
  rw [joined, List.getLast?_append, List.getLast?_cons, Option.some_or] at last
  have : '\r' ∈ ' ' :: rest := List.mem_of_getLast? (List.getLast?_cons ▸ last)
  simp [clean] at this

/-- A line that stands for a filter can stand anywhere in a text: a carriage return at its end would
be a part of its literal, and no literal has one. -/
theorem StandsAs.isPlainLine {text : String} {f : Filter} (h : scope.StandsAs text f)
    (line : '\n' ∉ text.toList) : IsPlainLine text.toList := by
  obtain ⟨type, tail, tokens, -, value⟩ := h
  have ret := (Literal.no_break_of_decode value).2
  rw [String.toList_ofList] at ret
  exact isPlainLine_of_splitOn tokens line (f.constraint.not_mem_spelling rfl) ret

/-- The row of a filter can stand anywhere in a text. -/
theorem HasRow.isPlainLine_line {type : FieldType} {f : Filter} (h : scope.HasRow type f)
    (regular : f.compareTo.IsRegular) : IsPlainLine f.line.toList := by
  refine (h.standsAs_line regular).isPlainLine ?_
  have feed := (Literal.no_break_of_decode (Literal.decode_literal h.canonical regular)).1
  have spelling : '\n' ∉ f.constraint.spelling.toList := f.constraint.not_mem_spelling rfl
  rw [toList_line]
  simp [h.no_feed, spelling, feed]

/-- What a line stands for can be written as a row. -/
theorem StandsAs.hasRow {text : String} {f : Filter} (h : scope.StandsAs text f)
    (line : '\n' ∉ text.toList) : (∃ type, scope.HasRow type f) ∧ f.compareTo.IsRegular := by
  obtain ⟨type, tail, tokens, offers, value⟩ := h
  obtain ⟨canonical, regular⟩ := Literal.of_decode value
  have field : f.field.toList ∈ text.toList.splitOn ' ' := tokens ▸ List.mem_cons_self
  exact ⟨⟨type, offers, not_mem_of_mem_splitOn field,
    fun feed => line (mem_of_mem_splitOn field feed), canonical⟩, regular⟩

/-! ### Query text -/

/-- The filters of a text can be written as query text. -/
theorem hasQuery_of_compile_eq_ok {text : String} {filters : List Filter}
    (h : scope.compile text = .ok filters) :
    scope.HasQuery filters ∧ ∀ f ∈ filters, f.compareTo.IsRegular := by
  -- each filter is what some line of the text stands for
  have each : ∀ f ∈ filters, (∃ type, scope.HasRow type f) ∧ f.compareTo.IsRegular := by
    intro f hf
    obtain ⟨i, hi⟩ := List.mem_iff_getElem?.1 hf
    obtain ⟨⟨row, here, stands⟩, -⟩ := (acceptsAs_of_compile_eq_ok h).2 i f hi
    have line := (Line.mem_lines_of_mem_ofText (List.mem_of_getElem? here)).1
    exact stands.hasRow (not_mem_of_mem_lines line)
  exact ⟨⟨(compile_eq_ok_iff.1 h).2, fun f hf => (each f hf).1⟩, fun f hf => (each f hf).2⟩

/-- What is written for filters has these filters. -/
theorem compile_query {filters : List Filter} (h : scope.HasQuery filters)
    (regular : ∀ f ∈ filters, f.compareTo.IsRegular) :
    scope.compile (Filter.query filters) = .ok filters := by
  refine compile_eq_ok_iff.2 ⟨?_, h.distinct⟩
  -- the lines can be told apart, so that the rows are those of the filters
  have plain : ∀ text ∈ filters.map Filter.line, IsPlainLine text.toList := by
    intro text ht
    obtain ⟨f, hf, rfl⟩ := List.mem_map.1 ht
    obtain ⟨type, row⟩ := h.rows f hf
    exact row.isPlainLine_line (regular f hf)
  rw [← List.forall₂_map_left_iff (f := Line.text), Filter.query, Line.ofText_intercalate plain,
    List.forall₂_map_left_iff, List.forall₂_same]
  intro f hf
  obtain ⟨type, row⟩ := h.rows f hf
  exact row.standsAs_line (regular f hf)

/-- **Compiling, rendering and compiling again.** The filters of a text are the filters of their own
query text, so it is rendered as the same text again. -/
theorem compile_query_of_compile {text : String} {filters : List Filter}
    (h : scope.compile text = .ok filters) :
    scope.compile (Filter.query filters) = .ok filters ∧
      (scope.compile (Filter.query filters)).map Filter.query = .ok (Filter.query filters) := by
  obtain ⟨writable, regular⟩ := hasQuery_of_compile_eq_ok h
  have same := compile_query writable regular
  exact ⟨same, by rw [same]; rfl⟩

/-- A leap second far in the future, a field without a name and a text between spaces, and the
negative zero before a carriage return. -/
theorem compile_query_of_compile_extremes :
    let schema : Schema :=
      ⟨[("when", .of .date), ("", .of .string), ("size", .of .number), ("old", .of .file)], by decide⟩
    let scope : Scope := ⟨schema, [⟨"old", .present, .bool true⟩], .builtin⟩
    let filters : List Filter :=
      [⟨"when", .after, .date ⟨327419020799, 1000000000⟩⟩, ⟨"", .equalTo, .text " a "⟩,
        ⟨"size", .lessThan, .number ⟨true, 0, by decide⟩⟩]
    let text := "when after +12345-06-30 23:59:60\n equalTo  a \nsize lessThan -0\r\n"
    scope.compile text = .ok filters ∧
      Filter.query filters =
        "when after +12345-06-30T23:59:60.000Z\n equalTo  a \nsize lessThan -0" ∧
      scope.compile (Filter.query filters) = .ok filters ∧
      (scope.compile (Filter.query filters)).map Filter.query = .ok (Filter.query filters) := by
  intro schema scope filters text
  have compiled : scope.compile text = .ok filters := by
    subst schema scope filters text
    rfl
  exact ⟨compiled, rfl, compile_query_of_compile compiled⟩

end Scope

end FilterLang
