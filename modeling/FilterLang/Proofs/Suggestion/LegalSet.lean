import FilterLang.Proofs.Query.Cause
import FilterLang.Proofs.Suggestion.Committed
import FilterLang.Proofs.Text.Returns

namespace FilterLang

/-!
# Suggestion — the constraints that a diagnostic offers

A row with a constraint that cannot be used is told which constraints are left, and somebody who types
this row is offered constraints after its field. The first list is computed from the rows that were
accepted, the second one from the first tokens of the lines above. Below a text without faults both are
what the catalog lists for the field, once the filters of this text are in place.

* `Scope.getLast?_ne_of_compile` — a text without faults does not end in a carriage return.
* `Scope.judge_of_compile_below` — below such a text, a row is judged after the filters of the text.
* `Scope.suggest_eq_available` — both lists are the same, in the same order.
-/

namespace Scope

variable {scope : Scope}

/-- A text without faults does not end in a carriage return, which would be a part of its last row. -/
theorem getLast?_ne_of_compile {text : String} {filters : List Filter}
    (h : scope.compile text = .ok filters) : text.toList.getLast? ≠ some '\r' := by
  intro ends
  obtain ⟨before, whole⟩ := List.getLast?_eq_some_iff.1 ends
  obtain ⟨pieces, last, hs⟩ := exists_last_piece '\n' before
  have feed : '\n' ∉ ['\r'] := by decide
  have cut := splitOn_append_of_not_mem hs feed
  rw [← whole] at cut
  -- a return that ends the text stays in the last line, which no accepted row can have
  have line : last ++ ['\r'] ∈ lines text.toList := by
    rw [lines_of_splitOn cut]
    simp
  obtain ⟨f, -, stands⟩ := exists_standsAs_of_compile h line (by simp)
  have plain := stands.isPlainLine (by simpa using not_mem_of_mem_lines line)
  exact plain.no_return (by simp)

/-- A rejected row below a text without faults has the only diagnostic, and it has been judged after the
filters of this text. -/
theorem judge_of_compile_below {earlier row : String} {filters : List Filter}
    {diagnostics : List Diagnostic} (above : scope.compile earlier = .ok filters)
    (feed : '\n' ∉ row.toList) (hne : row ≠ "")
    (failed : scope.compile (earlier ++ "\n" ++ row) = .error diagnostics) {d : Diagnostic}
    (hd : d ∈ diagnostics) :
    ∃ accepted, accepted.map (·.filter) = filters ∧
      scope.judge accepted row = .error d.fault := by
  have inside := row_lt_length failed hd
  obtain ⟨rejections, -⟩ := compile_eq_error_iff.1 failed
  rw [← rejections] at hd
  -- the rows are those of the text above, and this one
  have texts := Line.texts_ofText_below earlier row
  rw [Line.texts_ofText_of_not_mem feed hne, ← filter_lines_eq (getLast?_ne_of_compile above),
    ← Line.texts_ofText] at texts
  obtain ⟨upper, lower, rows, hupper, hlower⟩ := List.map_eq_append_iff.1 texts
  obtain ⟨last, rfl, rfl⟩ := List.map_eq_singleton_iff.1 hlower
  have verdicts : scope.verdicts upper 0 [] = filters.map .ok := by
    obtain ⟨stand, distinct⟩ := compile_eq_ok_iff_rows.1 above
    rw [← hupper, List.forall₂_map_left_iff] at stand
    exact verdicts_eq_map_ok_iff.2 ⟨stand, distinct, by simp⟩
  have accepted : (scope.run upper 0 []).map (·.filter) = filters := by
    rw [map_filter_run, verdicts, filterMap_toOption_map_ok]
    rfl
  have place : d.row = upper.length := by
    rw [rows, List.length_append, List.length_singleton] at inside
    by_contra other
    -- the verdicts on the rows above are those on the text above
    have first : filters.map .ok = (scope.verdicts (upper ++ [last]) 0 []).take upper.length := by
      rw [← verdicts_take, List.take_left, verdicts]
    have here := mem_rejections_iff.1 hd
    rw [rows, ← List.getElem?_take_of_lt (by omega : d.row < upper.length), ← first] at here
    simpa using List.mem_of_getElem? here
  have judged := judge_of_mem_rejections hd
  have here := (row_of_getElem?_verdicts (mem_rejections_iff.1 hd)).2
  rw [rows, place, List.take_left] at judged
  rw [rows, place, List.getElem?_concat_length, Option.some.injEq] at here
  exact ⟨_, accepted, here ▸ judged⟩

/-- **One list of constraints.** If a row below a text without faults has a constraint that cannot be
used, the constraints that its diagnostic offers are those that are suggested after its field, in the
same order. -/
theorem suggest_eq_available {earlier field rest : String} {filters : List Filter}
    (above : scope.compile earlier = .ok filters) (space : ' ' ∉ field.toList)
    (feed : '\n' ∉ (field ++ " " ++ rest).toList) {d : Diagnostic} {named constraint : String}
    {available : List Constraint}
    (failed : scope.compile (earlier ++ "\n" ++ (field ++ " " ++ rest)) = .error [d])
    (fault : d.fault = .unsupportedConstraint named constraint available) :
    available.map (·.spelling) = scope.suggest (earlier ++ "\n" ++ (field ++ " ")) := by
  obtain ⟨accepted, rfl, judged⟩ :=
    judge_of_compile_below above feed (by simp) failed (List.mem_singleton_self d)
  have whole : (field ++ " " ++ rest).toList = field.toList ++ ' ' :: rest.toList := by simp
  obtain ⟨second, literal, parts⟩ := Row.exists_ofText? whole space
  rw [String.ofList_toList] at parts
  have listed : available = ((scope.catalogAfter accepted).get? field).getD [] := by
    obtain ⟨-, other⟩ | ⟨type, -, ⟨cause, -, other⟩ | ⟨value, -, ⟨first, -, other⟩ |
      ⟨-, other, -⟩⟩⟩ := fault_of_judge parts judged <;> rw [fault] at other <;> cases other
    rfl
  -- after the space nothing has been typed, so all constraints that are listed are suggested
  have letters : (field ++ " ").toList = field.toList ++ [' '] := by simp
  have feed' : '\n' ∉ (field ++ " ").toList := fun h => by
    rw [String.toList_append] at feed
    exact feed (List.mem_append_left _ h)
  rw [suggest_below _ _ feed', catalogBelow_of_compile above, letters,
    completions_append_space _ space, String.ofList_toList, listed]
  rfl

/-- Below rows that end in different ways: a field for which some constraints are left, a field that is
in use already, and a field of which all constraints are banned. -/
theorem suggest_eq_available_none_left :
    let schema : Schema := ⟨[("name", .of .string), ("tags", .of .array), ("old", .of .file),
      ("owner", ⟨.relation, some "_User"⟩)], by decide⟩
    let scope : Scope :=
      ⟨schema, [⟨"old", .present, .bool true⟩], ⟨[.relatedTo, .containsAll]⟩⟩
    let filters : List Filter := [⟨"name", .startsWith, .text " A"⟩]
    let earlier := "\r\nname startsWith  A\r\n"
    let below (field rest : String) (available : List Constraint) : Prop :=
      ∃ d, scope.compile (earlier ++ "\n" ++ (field ++ " " ++ rest)) = .error [d] ∧
        d.fault = .unsupportedConstraint field "near" available ∧
        available.map (·.spelling) = scope.suggest (earlier ++ "\n" ++ (field ++ " "))
    scope.compile earlier = .ok filters ∧
      below "tags" "near a" [.present, .absent, .contains, .doesNotContain] ∧
      below "old" "near true" [] ∧ below "owner" "near true" [] := by
  intro schema scope filters earlier below
  have above : scope.compile earlier = .ok filters := by
    subst schema scope filters earlier
    rfl
  have tags : scope.compile (earlier ++ "\n" ++ ("tags" ++ " " ++ "near a")) =
      .error [⟨1, 4, "tags near a", .unsupportedConstraint "tags" "near"
        [.present, .absent, .contains, .doesNotContain]⟩] := by decide +kernel
  have old : scope.compile (earlier ++ "\n" ++ ("old" ++ " " ++ "near true")) =
      .error [⟨1, 4, "old near true", .unsupportedConstraint "old" "near" []⟩] := by decide +kernel
  have owner : scope.compile (earlier ++ "\n" ++ ("owner" ++ " " ++ "near true")) =
      .error [⟨1, 4, "owner near true", .unsupportedConstraint "owner" "near" []⟩] := by
    decide +kernel
  exact ⟨above, ⟨_, tags, rfl, suggest_eq_available above (by decide) (by decide) tags rfl⟩,
    ⟨_, old, rfl, suggest_eq_available above (by decide) (by decide) old rfl⟩,
    ⟨_, owner, rfl, suggest_eq_available above (by decide) (by decide) owner rfl⟩⟩

end Scope

end FilterLang
