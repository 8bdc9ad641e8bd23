import FilterLang.Proofs.Query.Acceptance
import FilterLang.Proofs.Text.Below

namespace FilterLang

/-!
# Query — a text in two pieces

The rows of a text see which fields the rows before them use. It makes no difference to a text
without faults whether these rows stand in the same text, or their filters are in place already.

* `Scope.after` — a scope with more filters in place.
* `Scope.standsAs_after_iff` — what a row says by itself, once more fields are in use.
* `Scope.compile_eq_ok_iff_rows` — the filters of a text, said by the rows of it.
* `Scope.compile_below_iff` — a text has filters if its two pieces have them, one after the other.
* `Scope.compile_row_eq_ok_iff` — a row that is written out has one filter, if this can be added.
* `Scope.no_diagnostic_below` — a row below others has no diagnostic if it stands alone, on a field
  that no row above stands for.
-/

/-- What agrees with two lists put together has two parts, one for each of them. -/
theorem forall₂_append_left_iff {α β : Type} {R : α → β → Prop} {first second : List α}
    {bs : List β} :
    List.Forall₂ R (first ++ second) bs ↔
      ∃ earlier later, List.Forall₂ R first earlier ∧ List.Forall₂ R second later ∧
        bs = earlier ++ later := by
  constructor
  · intro h
    refine ⟨bs.take first.length, bs.drop first.length, ?_, ?_, (List.take_append_drop _ _).symm⟩
    · simpa using List.forall₂_take first.length h
    · simpa using List.forall₂_drop first.length h
  · rintro ⟨earlier, later, upper, lower, rfl⟩
    exact List.rel_append upper lower

/-- Each item of a list has one that agrees with it. -/
theorem exists_of_forall₂_of_mem {α β : Type} {R : α → β → Prop} {as : List α} {bs : List β}
    (h : List.Forall₂ R as bs) {a : α} (ha : a ∈ as) : ∃ b ∈ bs, R a b := by
  induction h with
  | nil => cases ha
  | cons first _ ih =>
    rcases List.mem_cons.1 ha with rfl | ha
    · exact ⟨_, List.mem_cons_self, first⟩
    · obtain ⟨b, hb, related⟩ := ih ha
      exact ⟨b, List.mem_cons_of_mem _ hb, related⟩

/-! ### Fields of filters -/

namespace Filter

theorem fields_append (earlier later : List Filter) :
    fields (earlier ++ later) = fields earlier ++ fields later :=
  List.map_append

/-- Filters have fields of their own if those of each part have, and no field is in both parts. -/
theorem nodup_fields_append_iff {earlier later : List Filter} :
    (fields (earlier ++ later)).Nodup ↔
      (fields earlier).Nodup ∧ (fields later).Nodup ∧
        ∀ f ∈ later, f.field ∉ fields earlier := by
  rw [fields_append, List.nodup_append]
  refine and_congr_right fun _ => and_congr_right fun _ => ?_
  constructor
  · intro apart f hf both
    exact apart _ both _ (List.mem_map_of_mem hf) rfl
  · rintro apart field he _ hl rfl
    obtain ⟨f, hf, rfl⟩ := List.mem_map.1 hl
    exact apart f hf he

end Filter

namespace Scope

variable {scope : Scope}

/-! ### More filters in place -/

/-- The scope after more filters have been put in place. -/
def after (scope : Scope) (filters : List Filter) : Scope :=
  { scope with inPlace := scope.inPlace ++ filters }

@[simp] theorem fields_inPlace_after (scope : Scope) (filters : List Filter) :
    Filter.fields (scope.after filters).inPlace =
      Filter.fields scope.inPlace ++ Filter.fields filters :=
  Filter.fields_append _ _

/-- A filter can still be added if none of the new filters uses its field. -/
theorem offers_after_iff {filters : List Filter} {type : FieldType} {f : Filter} :
    (scope.after filters).Offers type f ↔
      scope.Offers type f ∧ f.field ∉ Filter.fields filters := by
  constructor
  · rintro ⟨declared, unused, applies, allowed⟩
    rw [fields_inPlace_after, List.mem_append, not_or] at unused
    exact ⟨⟨declared, unused.1, applies, allowed⟩, unused.2⟩
  · rintro ⟨⟨declared, unused, applies, allowed⟩, fresh⟩
    refine ⟨declared, ?_, applies, allowed⟩
    rw [fields_inPlace_after, List.mem_append, not_or]
    exact ⟨unused, fresh⟩

/-- A row still stands alone if none of the new filters uses its field. -/
theorem standsAs_after_iff {filters : List Filter} {text : String} {f : Filter} :
    (scope.after filters).StandsAs text f ↔
      scope.StandsAs text f ∧ f.field ∉ Filter.fields filters := by
  constructor
  · rintro ⟨type, tail, tokens, offers, value⟩
    obtain ⟨offers, fresh⟩ := offers_after_iff.1 offers
    exact ⟨⟨type, tail, tokens, offers, value⟩, fresh⟩
  · rintro ⟨⟨type, tail, tokens, offers, value⟩, fresh⟩
    exact ⟨type, tail, tokens, offers_after_iff.2 ⟨offers, fresh⟩, value⟩

/-- So do rows, if no field of the new filters is used. -/
theorem forall₂_standsAs_after_iff {rows : List String} {earlier later : List Filter} :
    List.Forall₂ (scope.after earlier).StandsAs rows later ↔
      List.Forall₂ scope.StandsAs rows later ∧ ∀ f ∈ later, f.field ∉ Filter.fields earlier := by
  induction later generalizing rows with
  | nil => simp
  | cons f later ih =>
    cases rows with
    | nil => simp
    | cons row rows =>
      rw [List.forall₂_cons, List.forall₂_cons, List.forall_mem_cons, standsAs_after_iff, ih,
        and_and_and_comm]

/-! ### Rows of two texts -/

/-- A text has filters if its rows stand for them, each with a field of its own. -/
theorem compile_eq_ok_iff_rows {text : String} {filters : List Filter} :
    scope.compile text = .ok filters ↔
      List.Forall₂ scope.StandsAs ((Line.ofText text).map (·.text)) filters ∧
        (Filter.fields filters).Nodup := by
  rw [compile_eq_ok_iff, List.forall₂_map_left_iff]

/-- Each line of it that is not empty stands for one of them. -/
theorem exists_standsAs_of_compile {text : String} {filters : List Filter}
    (h : scope.compile text = .ok filters) {line : List Char} (written : line ∈ lines text.toList)
    (ne : line ≠ []) : ∃ f ∈ filters, scope.StandsAs (String.ofList line) f := by
  have row : String.ofList line ∈ (Line.ofText text).map (·.text) := by
    rw [Line.texts_ofText]
    exact List.mem_map_of_mem (List.mem_filter.2 ⟨written, decide_eq_true ne⟩)
  exact exists_of_forall₂_of_mem (compile_eq_ok_iff_rows.1 h).1 row

/-- **Compiling in pieces.** A text below another has filters if the upper text has filters and the
lower text has filters once those are in place; together they are the filters of the whole. The
upper text does not end in a carriage return, as the line feed would take it along. -/
theorem compile_below_iff {first : String} (seam : first.toList.getLast? ≠ some '\r')
    (scope : Scope) (second : String) (filters : List Filter) :
    scope.compile (first ++ "\n" ++ second) = .ok filters ↔
      ∃ earlier later, scope.compile first = .ok earlier ∧
        (scope.after earlier).compile second = .ok later ∧ filters = earlier ++ later := by
  -- the first text ends in no return, so its pieces give the same rows under another text
  have upper : (((first.toList.splitOn '\n').map dropReturn).filter (· ≠ [])).map String.ofList =
      (Line.ofText first).map (·.text) := by
    rw [Line.texts_ofText, filter_lines_eq seam]
  rw [compile_eq_ok_iff_rows, Line.texts_ofText_below, upper, forall₂_append_left_iff]
  constructor
  · rintro ⟨⟨earlier, later, above, below, rfl⟩, distinct⟩
    -- distinct fields in all are distinct fields in each part and none in common, and the last is
    -- what compiling in the scope after the earlier filters asks
    obtain ⟨once, again, apart⟩ := Filter.nodup_fields_append_iff.1 distinct
    exact ⟨earlier, later, compile_eq_ok_iff_rows.2 ⟨above, once⟩,
      compile_eq_ok_iff_rows.2 ⟨forall₂_standsAs_after_iff.2 ⟨below, apart⟩, again⟩, rfl⟩
  · rintro ⟨earlier, later, above, below, rfl⟩
    obtain ⟨above, once⟩ := compile_eq_ok_iff_rows.1 above
    obtain ⟨below, again⟩ := compile_eq_ok_iff_rows.1 below
    obtain ⟨below, apart⟩ := forall₂_standsAs_after_iff.1 below
    exact ⟨⟨earlier, later, above, below, rfl⟩,
      Filter.nodup_fields_append_iff.2 ⟨once, again, apart⟩⟩

/-- An upper text that ends in a line feed itself, and a filter that is in place before both. -/
theorem compile_below_iff_blank_line :
    let schema : Schema :=
      ⟨[("name", .of .string), ("tags", .of .array), ("old", .of .boolean)], by decide⟩
    let scope : Scope := ⟨schema, [⟨"old", .equalTo, .bool true⟩], .builtin⟩
    let earlier : List Filter := [⟨"tags", .contains, .text "x y"⟩]
    let later : List Filter := [⟨"name", .startsWith, .text " A"⟩]
    let first := "tags contains x y\r\n"
    let second := "\nname startsWith  A"
    first.toList.getLast? ≠ some '\r' ∧ scope.compile first = .ok earlier ∧
      (scope.after earlier).compile second = .ok later ∧
      scope.compile (first ++ "\n" ++ second) = .ok (earlier ++ later) := by
  intro schema scope earlier later first second
  have seam : first.toList.getLast? ≠ some '\r' := by decide
  have above : scope.compile first = .ok earlier := by
    subst schema scope earlier first
    rfl
  have below : (scope.after earlier).compile second = .ok later := by
    subst schema scope earlier later second
    rfl
  exact ⟨seam, above, below,
    (compile_below_iff seam scope second (earlier ++ later)).2 ⟨earlier, later, above, below, rfl⟩⟩

-- At the end of the upper text, a carriage return is a part of the literal.
example :
    let scope : Scope := ⟨⟨[("old", .of .boolean)], by decide⟩, [], .builtin⟩
    scope.compile "old equalTo true\r\n" = .ok [⟨"old", .equalTo, .bool true⟩] ∧
      scope.compile "old equalTo true\r" = .error [⟨0, 1, "old equalTo true\r",
        .invalidValue "old" (.unsupported "true\r" .boolean)⟩] :=
  ⟨rfl, rfl⟩

/-! ### A text of one row -/

/-- A line that is not empty has one filter, if it stands for it. -/
theorem compile_eq_ok_iff_of_not_mem {text : String} (feed : '\n' ∉ text.toList) (hne : text ≠ "")
    {filters : List Filter} :
    scope.compile text = .ok filters ↔ ∃ f, filters = [f] ∧ scope.StandsAs text f := by
  rw [compile_eq_ok_iff_rows, Line.texts_ofText_of_not_mem feed hne]
  constructor
  · rintro ⟨rows, -⟩
    obtain ⟨f, _, stands, rest, rfl⟩ := List.forall₂_cons_left_iff.1 rows
    rw [List.forall₂_nil_left_iff.1 rest]
    exact ⟨f, rfl, stands⟩
  · rintro ⟨f, rfl, stands⟩
    exact ⟨.cons stands .nil, by simp [Filter.fields]⟩

/-- A row that is written out stands for a filter on its field and with its constraint, if this can be
added and the literal means its value. -/
theorem standsAs_row_iff {field literal : String} {constraint : Constraint}
    (space : ' ' ∉ field.toList) {f : Filter} :
    scope.StandsAs (field ++ " " ++ constraint.spelling ++ " " ++ literal) f ↔
      f.field = field ∧ f.constraint = constraint ∧
        ∃ type, scope.Offers type f ∧ Literal.decode type literal = .ok f.compareTo := by
  -- neither the field nor a spelling has a space, so the first two tokens are theirs
  have tokens : (field ++ " " ++ constraint.spelling ++ " " ++ literal).toList.splitOn ' ' =
      field.toList :: constraint.spelling.toList :: literal.toList.splitOn ' ' := by
    rw [← splitOn_line space (constraint.not_mem_spelling rfl)]
    simp
  have whole : String.ofList ([' '].intercalate (literal.toList.splitOn ' ')) = literal := by
    rw [List.intercalate_splitOn, String.ofList_toList]
  unfold StandsAs
  rw [tokens]
  simp only [List.cons.injEq, String.toList_inj]
  constructor
  · rintro ⟨type, tail, ⟨named, spelled, rfl⟩, offers, value⟩
    exact ⟨named.symm, (Constraint.spelling_injective spelled).symm, type, offers, whole ▸ value⟩
  · rintro ⟨rfl, rfl, type, offers, value⟩
    exact ⟨type, _, ⟨rfl, rfl, rfl⟩, offers, whole.symm ▸ value⟩

/-- So a text that is such a row has this one filter, and no other. -/
theorem compile_row_eq_ok_iff {field literal : String} {constraint : Constraint}
    (space : ' ' ∉ field.toList) (feed : '\n' ∉ field.toList) (feed' : '\n' ∉ literal.toList)
    {filters : List Filter} :
    scope.compile (field ++ " " ++ constraint.spelling ++ " " ++ literal) = .ok filters ↔
      ∃ type value, filters = [⟨field, constraint, value⟩] ∧
        scope.Offers type ⟨field, constraint, value⟩ ∧ Literal.decode type literal = .ok value := by
  have spelling : '\n' ∉ constraint.spelling.toList := constraint.not_mem_spelling rfl
  rw [compile_eq_ok_iff_of_not_mem (by simp [feed, feed', spelling]) (by simp)]
  simp only [standsAs_row_iff space]
  constructor
  · rintro ⟨⟨_, _, value⟩, rfl, rfl, rfl, type, offers, decoded⟩
    exact ⟨type, value, rfl, offers, decoded⟩
  · rintro ⟨type, value, rfl, offers, decoded⟩
    exact ⟨_, rfl, rfl, rfl, type, offers, decoded⟩

/-! ### A row below others -/

/-- A diagnostic is about one of the rows. -/
theorem row_lt_length {text : String} {diagnostics : List Diagnostic}
    (failed : scope.compile text = .error diagnostics) {d : Diagnostic} (hd : d ∈ diagnostics) :
    d.row < (Line.ofText text).length := by
  obtain ⟨rfl, -⟩ := compile_eq_error_iff.1 failed
  have here := (row_of_getElem?_verdicts (mem_rejections_iff.1 hd)).2
  exact (List.getElem?_eq_some_iff.1 here).1

/-- It is not about an accepted row. -/
theorem row_ne_of_accepts {text : String} {diagnostics : List Diagnostic}
    (failed : scope.compile text = .error diagnostics) {d : Diagnostic} (hd : d ∈ diagnostics)
    {i : Nat} (accepts : scope.Accepts (Line.ofText text) i) : d.row ≠ i := by
  rintro rfl
  have rejected := not_accepts_iff_of_compile_eq_error failed (row_lt_length failed hd)
  exact rejected.2 ⟨d, hd, rfl⟩ accepts

/-- A row below others is accepted if it stands alone and no row above it stands for the same
field. -/
theorem accepts_below {earlier row : String} {f : Filter} (plain : IsPlainLine row.toList)
    (stands : scope.StandsAs row f)
    (fresh : ∀ piece ∈ earlier.toList.splitOn '\n', ∀ g,
      scope.StandsAs (String.ofList (dropReturn piece)) g → g.field ≠ f.field) :
    ∃ above last, Line.ofText (earlier ++ "\n" ++ row) = above ++ [last] ∧ last.text = row ∧
      scope.Accepts (above ++ [last]) above.length := by
  have texts := Line.texts_ofText_below earlier row
  rw [Line.texts_ofText_of_not_mem plain.no_feed (by simpa using plain.ne_nil)] at texts
  obtain ⟨above, below, hrows, habove, hbelow⟩ := List.map_eq_append_iff.1 texts
  obtain ⟨last, rfl, rfl⟩ := List.map_eq_singleton_iff.1 hbelow
  refine ⟨above, last, hrows, rfl, f, ⟨last, by simp, stands⟩, ?_⟩
  intro upper hu g hg
  -- a row above is a piece of the text above
  rw [List.take_left] at hu
  have ht : upper.text ∈ above.map (·.text) := List.mem_map_of_mem hu
  rw [habove, List.mem_map] at ht
  obtain ⟨line, hl, text⟩ := ht
  obtain ⟨piece, hp, rfl⟩ := List.mem_map.1 (List.mem_of_mem_filter hl)
  exact fresh piece hp g (text ▸ hg)

/-- Such a row is the last one of the text, and no diagnostic is about it. -/
theorem no_diagnostic_below {earlier row : String} {f : Filter} (plain : IsPlainLine row.toList)
    (stands : scope.StandsAs row f)
    (fresh : ∀ piece ∈ earlier.toList.splitOn '\n', ∀ g,
      scope.StandsAs (String.ofList (dropReturn piece)) g → g.field ≠ f.field) :
    (Line.ofText (earlier ++ "\n" ++ row)).getLast?.map (·.text) = some row ∧
      ∀ diagnostics, scope.compile (earlier ++ "\n" ++ row) = .error diagnostics →
        ∀ d ∈ diagnostics, d.row + 1 < (Line.ofText (earlier ++ "\n" ++ row)).length := by
  obtain ⟨above, last, hrows, rfl, accepts⟩ := accepts_below plain stands fresh
  constructor
  · rw [hrows]
    simp
  · intro diagnostics failed d hd
    -- the row has a place in the text and no diagnostic has that place
    have inside := row_lt_length failed hd
    have other := row_ne_of_accepts failed hd (hrows ▸ accepts)
    rw [hrows, List.length_append, List.length_singleton] at inside ⊢
    omega

end Scope

end FilterLang
