import FilterLang.Proofs.Catalog.Used
import FilterLang.Proofs.Suggestion.Committed
import FilterLang.Proofs.Suggestion.Typing
import FilterLang.Proofs.Text.Returns

namespace FilterLang

/-!
# Suggestion — carriage returns in the line breaks above

The text above the last line is cut off before the line feed that ends it, and so the last line above
keeps a carriage return that belongs to its line break. Where this line has a space, the carriage
return is no part of its first token, and nothing changes. But a token alone on this line is read
with the carriage return: it does not mention its field.

* `Scope.catalogBelow_concat` — what is listed below one more line.
* `Scope.LosesMention` — a carriage return changes what the last line above mentions.
* `Scope.completions_without_eq_self` — lines that are completed alike with a field and without it.
* `Scope.suggest_withReturns_iff` — whatever the last line is, carriage returns in the line breaks
  above make no difference to its suggestions, unless a mention is lost.
-/

namespace Scope

variable {scope : Scope}

/-! ### One more line above -/

theorem mentioned_append (scope : Scope) (first second : List (List Char)) :
    scope.mentioned (first ++ second) = scope.mentioned first ++ scope.mentioned second := by
  simp only [mentioned, List.filter_append, List.map_append]

/-- Below one more line, the field that it starts with is not listed. An empty line is skipped. -/
theorem catalogBelow_concat (scope : Scope) (upper : List (List Char)) (line : List Char) :
    scope.catalogBelow (upper ++ [line]) =
      if line = [] then scope.catalogBelow upper
      else (scope.catalogBelow upper).without (firstToken line) := by
  rw [catalogBelow, mentioned_append, catalogBelow]
  split
  next empty => simp [mentioned, empty]
  next hne =>
    have mentioned : scope.mentioned [line] =
        if scope.schema.contains (firstToken line) then [firstToken line] else [] := by
      simp [Scope.mentioned, hne, List.filter_singleton]
    rw [mentioned]
    split
    next declared => rw [← List.append_assoc, Catalog.of_append_singleton]
    next undeclared =>
      -- a token that is no field is not listed anyway
      rw [List.append_nil, Catalog.without_eq_self]
      exact fun listed => undeclared (Catalog.contains_of_mem_fields listed)

/-! ### The last line above -/

/-- The last line above is a token alone, and a carriage return changes what it mentions: a field is not
mentioned any more; or none was, but with the carriage return the token is a field. -/
def LosesMention (scope : Scope) (above : List Char) : Prop :=
  ∃ upper token, above.splitOn '\n' = upper ++ [token] ∧ ' ' ∉ token ∧
    let listed := (scope.catalogBelow upper).fields
    (String.ofList token ∈ listed ∧ token ≠ [] ∨
      String.ofList token ∉ listed ∧ String.ofList (token ++ ['\r']) ∈ listed)

section

variable {above token : List Char} {upper : List (List Char)}

/-- The catalog below the lines of a text without carriage returns. -/
theorem catalogBelow_lines (h : above.splitOn '\n' = upper ++ [token]) (plain : '\r' ∉ above) :
    scope.catalogBelow (lines above) =
      if token = [] then scope.catalogBelow upper
      else (scope.catalogBelow upper).without (firstToken token) := by
  rw [lines_of_splitOn_plain h plain]
  split
  next empty => rw [List.append_nil]
  next hne => rw [catalogBelow_concat, if_neg hne]

/-- The catalog below these lines when the last one keeps a carriage return. -/
theorem catalogBelow_lines_return (h : above.splitOn '\n' = upper ++ [token]) (plain : '\r' ∉ above)
    (chosen : Nat → Bool) :
    scope.catalogBelow (lines (withReturns chosen above ++ ['\r'])) =
      (scope.catalogBelow upper).without (firstToken (token ++ ['\r'])) := by
  rw [lines_withReturns_append_return h plain, catalogBelow_concat, if_neg (by simp)]

/-- A line without a space is its own first token. -/
theorem firstToken_of_not_mem {line : List Char} (h : ' ' ∉ line) :
    firstToken line = String.ofList line := by
  rw [firstToken, cut_of_splitOn (List.splitOn_eq_singleton h)]

/-- A carriage return is a part of a token alone, and of no other first token. -/
theorem firstToken_append_return (token : List Char) :
    firstToken (token ++ ['\r']) =
      if ' ' ∈ token then firstToken token else String.ofList (token ++ ['\r']) := by
  split
  next space => rw [firstToken, cut_append_of_mem space, firstToken]
  next alone => exact firstToken_of_not_mem (by simp [alone])

end

/-! ### Completing the last line -/

/-- A line that does not start with a field is completed alike without it, unless all fields that the
line is part of are suggested, and this one is among them. -/
theorem completions_without_eq_self {catalog : Catalog} {field : String} {line : List Char}
    (ret : '\r' ∉ line) (start : firstToken line ≠ field)
    (part : String.ofList line ∈ catalog.fields ∨ ¬line <:+: field.toList) :
    completions (catalog.without field) line = completions catalog line := by
  by_cases space : ' ' ∈ line
  · -- from the second token on, only the entry of the first token counts
    have kept : dropReturn line = line := dropReturn_eq_self fun last => ret (List.mem_of_getLast? last)
    obtain ⟨first, rest, tokens⟩ := List.exists_cons_of_ne_nil (List.splitOn_ne_nil ' ' line)
    rw [firstToken, cut_of_splitOn tokens] at start
    have listed := Catalog.get?_without catalog field (String.ofList first)
    rw [if_neg start] at listed
    rw [completions, completions, kept, tokens]
    rcases rest with _ | ⟨second, _ | _⟩
    · -- a token alone has no space
      have whole := eq_intercalate_of_splitOn tokens
      rw [List.intercalate_singleton] at whole
      exact absurd (whole ▸ space) (not_mem_of_mem_splitOn (tokens ▸ List.mem_cons_self))
    · simp only [candidates, listed]
    · rfl
  · rw [firstToken_of_not_mem space] at start
    rw [completions_of_not_mem _ space ret, completions_of_not_mem _ space ret,
      Catalog.get?_without, if_neg start]
    cases listed : catalog.get? (String.ofList line) with
    | some constraints => rfl
    | none =>
      have other : ¬line <:+: field.toList := part.resolve_left fun named => by
        obtain ⟨constraints, found⟩ := Catalog.mem_fields_iff.1 named
        rw [listed] at found
        cases found
      simp only [Option.map_none, Option.getD_none, Catalog.fields_without, List.filter_filter]
      apply List.filter_congr
      intro name _
      by_cases same : name = field
      · rw [← occursIn_iff, Bool.not_eq_true, ← same] at other
        simp [other]
      · simp [same]

/-- The first token holds nothing that the line does not hold. -/
theorem not_mem_firstToken {line : List Char} {c : Char} (h : c ∉ line) :
    c ∉ (firstToken line).toList := by
  obtain ⟨first, rest, tokens⟩ := List.exists_cons_of_ne_nil (List.splitOn_ne_nil ' ' line)
  rw [firstToken, cut_of_splitOn tokens, String.toList_ofList]
  exact fun hc => h (mem_of_mem_splitOn (tokens ▸ List.mem_cons_self) hc)

/-- A field alone on a line and the same token with a carriage return behind it: all lines below are
completed alike, whichever of both is mentioned, unless this makes a difference to what is listed. -/
theorem completions_agree_iff {catalog : Catalog} {token : List Char} (space : ' ' ∉ token)
    (feed : '\n' ∉ token) (ret : '\r' ∉ token)
    (left : ∀ constraints, catalog.get? (String.ofList token) = some constraints →
      ∃ constraint, constraint ∈ constraints) :
    (∀ line, '\n' ∉ line → '\r' ∉ line →
        completions (catalog.without (String.ofList (token ++ ['\r']))) line =
          completions (if token = [] then catalog else catalog.without (String.ofList token)) line) ↔
      ¬(String.ofList token ∈ catalog.fields ∧ token ≠ [] ∨
        String.ofList token ∉ catalog.fields ∧ String.ofList (token ++ ['\r']) ∈ catalog.fields) := by
  have other : String.ofList token ≠ String.ofList (token ++ ['\r']) := by
    rw [Ne, String.ofList_inj]
    simp
  have kept (unlisted : String.ofList token ∉ catalog.fields) :
      (if token = [] then catalog else catalog.without (String.ofList token)) = catalog := by
    rw [Catalog.without_eq_self unlisted, ite_self]
  constructor
  · rintro agree (⟨listed, hne⟩ | ⟨unlisted, listed⟩)
    · -- the field and a space: its constraints are suggested, or nothing is
      have same := agree (token ++ [' ']) (by simp [feed]) (by simp [ret])
      obtain ⟨constraints, found⟩ := Catalog.mem_fields_iff.1 listed
      obtain ⟨constraint, hc⟩ := left constraints found
      rw [if_neg hne, completions_append_space _ space, completions_append_space _ space,
        Catalog.get?_without, Catalog.get?_without, if_neg other, if_pos rfl, found] at same
      exact List.ne_nil_of_mem (List.mem_map_of_mem hc) same
    · -- the token itself: the field with the carriage return is suggested, or it is not
      have same := agree token feed ret
      have gone : String.ofList token ∉ (catalog.without (String.ofList (token ++ ['\r']))).fields := by
        rw [Catalog.fields_without, List.mem_filter]
        exact fun h => unlisted h.1
      have suggested : String.ofList (token ++ ['\r']) ∈ completions catalog token := by
        rw [completions_of_unlisted space ret unlisted, List.mem_filter, occursIn_iff,
          String.toList_ofList]
        exact ⟨listed, (List.prefix_append _ _).isInfix⟩
      rw [kept unlisted] at same
      rw [← same, completions_of_unlisted space ret gone, Catalog.fields_without, List.mem_filter,
        List.mem_filter] at suggested
      simp at suggested
  · intro clear line _ noReturn
    rw [not_or, not_and, not_not] at clear
    by_cases listed : String.ofList token ∈ catalog.fields
    · -- an empty line mentions nothing, and no other line is a part of a carriage return
      obtain rfl := clear.1 listed
      refine completions_without_eq_self noReturn (fun start => ?_) (or_iff_not_imp_left.2 ?_)
      · apply not_mem_firstToken noReturn
        rw [start]
        simp
      · intro unnamed part
        obtain ⟨c, hc⟩ := List.exists_mem_of_ne_nil line (by rintro rfl; exact unnamed listed)
        have : c ∈ ['\r'] := by simpa using part.subset hc
        exact noReturn (List.mem_singleton.1 this ▸ hc)
    · have unlisted : String.ofList (token ++ ['\r']) ∉ catalog.fields := fun h => clear.2 ⟨listed, h⟩
      rw [kept listed, Catalog.without_eq_self unlisted]

/-! ### Carriage returns above the last line -/

/-- The suggestions for the last line of a text in which some line breaks have a carriage return. -/
theorem suggest_withReturns (scope : Scope) (chosen : Nat → Bool) (above : String) {last : String}
    (feed : '\n' ∉ last.toList) :
    scope.suggest (String.ofList (withReturns chosen (above ++ "\n" ++ last).toList)) =
      completions (scope.catalogBelow (lines (withReturns chosen above.toList ++
        returnAt chosen (above.toList.count '\n')))) last.toList := by
  have text : String.ofList (withReturns chosen (above ++ "\n" ++ last).toList) =
      String.ofList (withReturns chosen above.toList ++
        returnAt chosen (above.toList.count '\n')) ++ "\n" ++ last := by
    rw [← String.toList_inj, toList_below, toList_below, withReturns_append_cons,
      withReturns_of_not_mem feed, String.toList_ofList, String.toList_ofList]
  rw [text, suggest_below _ _ feed, String.toList_ofList]

/-- What is lost depends on the last line above only. -/
theorem losesMention_iff {above token : List Char} {upper : List (List Char)}
    (h : above.splitOn '\n' = upper ++ [token]) :
    scope.LosesMention above ↔ ' ' ∉ token ∧
      (String.ofList token ∈ (scope.catalogBelow upper).fields ∧ token ≠ [] ∨
        String.ofList token ∉ (scope.catalogBelow upper).fields ∧
          String.ofList (token ++ ['\r']) ∈ (scope.catalogBelow upper).fields) := by
  constructor
  · rintro ⟨upper', token', h', lost⟩
    obtain ⟨rfl, same⟩ := List.append_inj' (h.symm.trans h') rfl
    obtain rfl := List.singleton_inj.1 same
    exact lost
  · exact fun lost => ⟨upper, token, h, lost⟩

/-- **Line breaks above the last line.** A text of one line has no line break. Else, whatever the last
line is, a text without carriage returns has the same suggestions when some of them are put before its
line feeds: if and only if none is put before the last line feed, or no mention is lost by it. -/
theorem suggest_withReturns_iff (scope : Scope) (chosen : Nat → Bool) :
    (∀ text : String, '\n' ∉ text.toList →
      scope.suggest (String.ofList (withReturns chosen text.toList)) = scope.suggest text) ∧
    ∀ above : String, '\r' ∉ above.toList →
      ((∀ last : String, '\n' ∉ last.toList → '\r' ∉ last.toList →
          let text := above ++ "\n" ++ last
          scope.suggest (String.ofList (withReturns chosen text.toList)) = scope.suggest text) ↔
        ¬(chosen (above.toList.count '\n') = true ∧ scope.LosesMention above.toList)) := by
  refine ⟨fun text feed => by rw [withReturns_of_not_mem feed, String.ofList_toList], ?_⟩
  intro above plain
  obtain ⟨upper, token, pieces⟩ := exists_last_piece '\n' above.toList
  have feed : '\n' ∉ token := not_mem_of_mem_splitOn (pieces ▸ List.mem_append_right _ (by simp))
  have ret := (not_mem_of_mem_pieces pieces plain).2
  rw [losesMention_iff pieces]
  cases put : chosen (above.toList.count '\n') with
  | false =>
    -- the last line above is ended by a line feed alone
    refine iff_of_true (fun last line _ => ?_) (fun h => Bool.false_ne_true h.1)
    simp only
    rw [suggest_withReturns scope chosen above line, returnAt, put, if_neg Bool.false_ne_true,
      List.append_nil, lines_withReturns plain, suggest_below _ _ line]
  | true =>
    have each {last : String} (line : '\n' ∉ last.toList) :
        scope.suggest (String.ofList (withReturns chosen (above ++ "\n" ++ last).toList)) =
            scope.suggest (above ++ "\n" ++ last) ↔
          completions ((scope.catalogBelow upper).without (firstToken (token ++ ['\r']))) last.toList =
            completions (if token = [] then scope.catalogBelow upper
              else (scope.catalogBelow upper).without (firstToken token)) last.toList := by
      rw [suggest_withReturns scope chosen above line, returnAt, put, if_pos rfl,
        catalogBelow_lines_return pieces plain, suggest_below _ _ line, catalogBelow_lines pieces plain]
    by_cases space : ' ' ∈ token
    · -- the line mentions the same field, with the carriage return and without it
      refine iff_of_true (fun last line _ => (each line).2 ?_) (fun h => h.2.1 space)
      rw [firstToken_append_return, if_pos space, if_neg (List.ne_nil_of_mem space)]
    · rw [firstToken_append_return, if_neg space, firstToken_of_not_mem space] at each
      rw [and_iff_right rfl, and_iff_right space, ← completions_agree_iff space feed ret]
      · constructor
        · intro agree line noFeed noReturn
          have same := (each (by rwa [String.toList_ofList])).1
            (agree (String.ofList line) (by rwa [String.toList_ofList]) (by rwa [String.toList_ofList]))
          rwa [String.toList_ofList] at same
        · exact fun agree last line noReturn => (each line).2 (agree last.toList line noReturn)
      · exact fun constraints found => Catalog.exists_mem_of_get? found

/-- The last line above has a space, and so its carriage return changes nothing for a name below that is
part of another one. A line without a line break keeps the suggestions that it has. -/
theorem suggest_withReturns_iff_second_token :
    let schema : Schema := ⟨[("name", .of .string), ("nickname", .of .string)], by decide⟩
    let scope : Scope := ⟨schema, [⟨"old", .present, .bool true⟩], .builtin⟩
    let above := "nickname\n\nname lessThan"
    '\n' ∉ "nam".toList ∧ '\r' ∉ above.toList ∧ '\n' ∉ "name".toList ∧ '\r' ∉ "name".toList ∧
      scope.suggest (String.ofList (withReturns (fun _ => true) "nam".toList)) =
        scope.suggest "nam" ∧
      ¬((fun _ => true) (above.toList.count '\n') = true ∧ scope.LosesMention above.toList) ∧
      String.ofList (withReturns (fun _ => true) (above ++ "\n" ++ "name").toList) =
        "nickname\r\n\r\nname lessThan\r\nname" ∧
      scope.suggest (String.ofList (withReturns (fun _ => true) (above ++ "\n" ++ "name").toList)) =
        scope.suggest (above ++ "\n" ++ "name") := by
  intro schema scope above
  have single : '\n' ∉ "nam".toList := by decide
  have plain : '\r' ∉ above.toList := by decide
  have feed : '\n' ∉ "name".toList := by decide
  have ret : '\r' ∉ "name".toList := by decide
  have kept : ¬((fun _ => true) (above.toList.count '\n') = true ∧ scope.LosesMention above.toList) := by
    -- the line above the last has two tokens, so the return does not touch the first
    rintro ⟨-, lost⟩
    have pieces : above.toList.splitOn '\n' = ["nickname".toList, []] ++ ["name lessThan".toList] := by
      decide
    exact ((losesMention_iff pieces).1 lost).1 (by decide)
  obtain ⟨alone, below⟩ := suggest_withReturns_iff scope fun _ => true
  exact ⟨single, plain, feed, ret, alone "nam" single, kept, by decide,
    (below above plain).2 kept "name" feed ret⟩

/-- A field alone on a line mentions itself if a line feed ends the line, and nothing if a carriage
return and a line feed do. -/
theorem suggest_withReturns_name_alone :
    let scope : Scope := ⟨⟨[("name", .of .string)], by decide⟩, [], .builtin⟩
    let text := "name\n"
    '\r' ∉ text.toList ∧
      String.ofList (withReturns (fun _ => true) text.toList) = "name\r\n" ∧
      scope.suggest text = [] ∧ scope.suggest "name\r\n" = ["name"] ∧
      scope.suggest (String.ofList (withReturns (fun _ => true) text.toList)) ≠ scope.suggest text := by
  decide

end Scope

end FilterLang
