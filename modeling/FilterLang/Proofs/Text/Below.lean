import FilterLang.Proofs.Text.Lines

namespace FilterLang

/-!
# Text — one text below another

Two texts with a line feed between them are read as one text. The line feed ends the last line of
the first text, which may lose a carriage return by that; nothing else changes.

* `List.splitOn_append_cons_self` — the pieces of both texts stand side by side.
* `lines_below` — so do the lines; those of the first text are its pieces, each of them ended.
* `filter_lines_eq` — a text that does not end in a carriage return has these lines by itself.
* `Line.texts_ofText_below` — and the rows of both texts stand side by side.
-/

/-! ### Pieces -/

/-- There is a last piece. -/
theorem exists_last_piece (sep : Char) (text : List Char) :
    ∃ pieces last, text.splitOn sep = pieces ++ [last] := by
  obtain ⟨pieces, last, hs⟩ :=
    (List.eq_nil_or_concat (text.splitOn sep)).resolve_left (List.splitOn_ne_nil sep text)
  exact ⟨pieces, last, by rw [hs, List.concat_eq_append]⟩

/-- The last piece is what a text ends with. -/
theorem isSuffix_intercalate (sep : List Char) (pieces : List (List Char)) (last : List Char) :
    last <:+ sep.intercalate (pieces ++ [last]) := by
  induction pieces with
  | nil => simp
  | cons piece pieces ih =>
    obtain ⟨next, rest, hs⟩ := List.exists_cons_of_ne_nil (List.concat_ne_nil last pieces)
    rw [List.cons_append, hs, List.intercalate_cons_cons, ← hs]
    exact ih.trans (List.suffix_append _ _)

/-! ### Lines -/

/-- Pieces before others are lines that a line feed has ended. -/
theorem endedLines_append (pieces : List (List Char)) {others : List (List Char)} (h : others ≠ []) :
    endedLines (pieces ++ others) = pieces.map dropReturn ++ endedLines others := by
  induction pieces with
  | nil => rfl
  | cons piece pieces ih =>
    obtain ⟨next, rest, hs⟩ := List.exists_cons_of_ne_nil (List.append_ne_nil_of_right_ne_nil pieces h)
    rw [List.cons_append, hs, endedLines, ← hs, ih, List.map_cons, List.cons_append]

/-- The lines of a text below another. -/
theorem lines_below (first second : List Char) :
    lines (first ++ '\n' :: second) = (first.splitOn '\n').map dropReturn ++ lines second := by
  unfold lines
  rw [List.splitOn_append_cons_self, endedLines_append _ (List.splitOn_ne_nil '\n' second)]

/-- The last line of a text is not ended, and it counts as a line only if it is not empty. -/
theorem lines_of_splitOn {text last : List Char} {pieces : List (List Char)}
    (h : text.splitOn '\n' = pieces ++ [last]) :
    lines text = pieces.map dropReturn ++ if last = [] then [] else [last] := by
  unfold lines
  rw [h, endedLines_append _ (List.cons_ne_nil _ _), endedLines]

/-- Empty lines apart, it makes no difference to a text whether its last line is ended, unless this
line holds a carriage return at its end. -/
theorem filter_lines_eq {text : List Char} (h : text.getLast? ≠ some '\r') :
    (lines text).filter (· ≠ []) = ((text.splitOn '\n').map dropReturn).filter (· ≠ []) := by
  obtain ⟨pieces, last, hs⟩ := exists_last_piece '\n' text
  have kept : dropReturn last = last := by
    apply dropReturn_eq_self
    intro ret
    apply h
    obtain ⟨before, joined⟩ := isSuffix_intercalate ['\n'] pieces last
    rw [← eq_intercalate_of_splitOn hs] at joined
    rw [← joined, List.getLast?_append, ret, Option.some_or]
  rw [lines_of_splitOn hs, hs, List.map_append, List.filter_append, List.filter_append,
    List.map_singleton, kept]
  by_cases empty : last = [] <;> simp [empty]

theorem toList_below (first second : String) :
    (first ++ "\n" ++ second).toList = first.toList ++ '\n' :: second.toList := by
  simp

/-! ### Rows -/

namespace Line

/-- A line that is not empty is one row. -/
theorem texts_ofText_of_not_mem {text : String} (h : '\n' ∉ text.toList) (hne : text ≠ "") :
    (ofText text).map (·.text) = [text] := by
  rw [texts_ofText, lines_of_not_mem h (by simpa using hne)]
  simp [hne]

/-- The rows of a text below another. -/
theorem texts_ofText_below (first second : String) :
    (ofText (first ++ "\n" ++ second)).map (·.text) =
      (((first.toList.splitOn '\n').map dropReturn).filter (· ≠ [])).map String.ofList ++
        (ofText second).map (·.text) := by
  rw [texts_ofText, texts_ofText, toList_below, lines_below, List.filter_append, List.map_append]

end Line

end FilterLang
