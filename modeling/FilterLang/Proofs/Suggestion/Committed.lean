import FilterLang.Proofs.Query.Pieces
import FilterLang.Proofs.Query.RoundTrip
import FilterLang.Proofs.Suggestion.LastLine

namespace FilterLang

/-!
# Suggestion — lines above whose filters are in place

A suggestion depends on the lines above by their first tokens, read off the text as it is typed; and
on the filters in place by their fields. Once the lines above have filters, these are the same: each
row starts with the field of its filter, and an accepted row names a declared field.

* `Scope.mentioned_of_compile` — the lines of a text without faults mention the fields of its
  filters.
* `Scope.catalogBelow_of_compile` — so they leave the same catalog, typed or in place.
* `Scope.suggest_of_not_mem` — the suggestions for a text of one line.
* `Scope.suggest_below_of_compile` — what is suggested below a text is what is suggested once its
  filters are in place.
-/

/-- A text without a line feed is its own last line, and no line is above it. -/
theorem lastLine_of_not_mem {text : List Char} (h : '\n' ∉ text) : lastLine text = ([], text) := by
  simp [lastLine, List.splitOn_eq_singleton h, endedLines]

namespace Scope

variable {scope : Scope}

/-- Without lines, no field is mentioned. -/
@[simp] theorem mentioned_nil (scope : Scope) : scope.mentioned [] = [] := rfl

/-- The lines of a text without faults mention the fields of its filters, in their order. -/
theorem mentioned_of_compile {text : String} {filters : List Filter}
    (h : scope.compile text = .ok filters) :
    scope.mentioned (lines text.toList) = Filter.fields filters := by
  have rows := (compile_eq_ok_iff_rows.1 h).1
  -- the rows are the lines that are not empty, and each of them starts with the field of its filter
  have tokens := map_firstToken_eq_fields rows
  rw [Line.texts_ofText, List.map_map] at tokens
  have first : (fun row : String => firstToken row.toList) ∘ String.ofList = firstToken := by
    funext line
    rw [Function.comp_apply, String.toList_ofList]
  rw [first] at tokens
  rw [mentioned, tokens, List.filter_eq_self]
  intro field hf
  obtain ⟨f, hmem, rfl⟩ := List.mem_map.1 hf
  obtain ⟨type, row⟩ := (hasQuery_of_compile_eq_ok h).1.rows f hmem
  rw [Schema.contains, row.declared]
  rfl

/-- So they leave the catalog that is left once these filters are in place. -/
theorem catalogBelow_of_compile {text : String} {filters : List Filter}
    (h : scope.compile text = .ok filters) :
    scope.catalogBelow (lines text.toList) = (scope.after filters).catalog := by
  rw [catalogBelow, mentioned_of_compile h, catalog, fields_inPlace_after]
  rfl

/-- The suggestions for a text of one line. -/
theorem suggest_of_not_mem (scope : Scope) {text : String} (h : '\n' ∉ text.toList) :
    scope.suggest text = completions scope.catalog text.toList := by
  rw [suggest, lastLine_of_not_mem h]
  simp only [catalogBelow, mentioned_nil, List.append_nil]
  rfl

/-- **Putting the lines above in place.** Below a text that has filters, a line has the suggestions
that it has by itself once these filters are in place, in the same order. -/
theorem suggest_below_of_compile {earlier last : String} {filters : List Filter}
    (h : scope.compile earlier = .ok filters) (feed : '\n' ∉ last.toList) :
    scope.suggest (earlier ++ "\n" ++ last) = (scope.after filters).suggest last := by
  rw [suggest_below _ _ feed, suggest_of_not_mem _ feed, catalogBelow_of_compile h]

/-- Below lines that end in different ways, a name that is in use is a part of one that is not. -/
theorem suggest_below_of_compile_name_in_use :
    let schema : Schema :=
      ⟨[("name", .of .string), ("size", .of .number), ("nickname", .of .string)], by decide⟩
    let scope : Scope := ⟨schema, [⟨"old", .present, .bool true⟩], .builtin⟩
    let filters : List Filter := [⟨"size", .lessThan, .bool true⟩, ⟨"name", .equalTo, .text " a"⟩]
    let earlier := "\r\nsize lessThan true\r\n\nname equalTo  a\n"
    scope.compile earlier = .ok filters ∧ '\n' ∉ "name".toList ∧
      scope.suggest (earlier ++ "\n" ++ "name") = (scope.after filters).suggest "name" ∧
      (scope.after filters).suggest "name" = ["nickname"] := by
  intro schema scope filters earlier
  have compiled : scope.compile earlier = .ok filters := by
    subst schema scope filters earlier
    rfl
  have feed : '\n' ∉ "name".toList := by decide
  exact ⟨compiled, feed, suggest_below_of_compile compiled feed, by decide⟩

-- A rejected line has no filter that could be put in place, but it mentions its field.
example :
    let scope : Scope := ⟨⟨[("size", .of .number)], by decide⟩, [], .builtin⟩
    scope.suggest "size lessThan\nsi" = [] ∧ scope.suggest "si" = ["size"] := by
  decide

end Scope

end FilterLang
