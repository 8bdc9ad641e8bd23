import FilterLang.Proofs.Text.Lines

namespace FilterLang

/-!
# Text — changing one line

* `editLine` — a text with one of its lines changed; the line breaks stay as they are.
* `lines_editLine` — its lines, if the changed line can stand anywhere in a text.
* `Line.ofText_editLine` — so its rows are those of the text, but for the one that stands on this line.
-/

/-- The carriage return that a line break takes along. -/
def returnOf (line : List Char) : List Char := if line.getLast? = some '\r' then ['\r'] else []

/-- A text with one of its lines changed. Lines are counted from 0, and the change does not see the line
break. -/
def editLine (change : List Char → List Char) : Nat → List Char → List Char
  | 0, text =>
    match cut '\n' text with
    | (line, none) => change line
    | (line, some below) => change (dropReturn line) ++ returnOf line ++ '\n' :: below
  | n + 1, text =>
    match cut '\n' text with
    | (_, none) => text
    | (line, some below) => line ++ '\n' :: editLine change n below

/-! ### Lines -/

theorem cut_of_not_mem {sep : Char} {text : List Char} (h : sep ∉ text) : cut sep text = (text, none) :=
  cut_of_splitOn (List.splitOn_eq_singleton h)

/-- What comes after the first separator is cut off. -/
theorem cut_append_cons {sep : Char} {piece : List Char} (h : sep ∉ piece) (rest : List Char) :
    cut sep (piece ++ sep :: rest) = (piece, some rest) := by
  rw [cut_of_splitOn (List.splitOn_append_cons_self_of_not_mem h rest),
    if_neg (List.splitOn_ne_nil sep rest), List.intercalate_splitOn]

/-- A line break takes its carriage return along, and leaves the line in front of it. -/
theorem dropReturn_append_returnOf {line : List Char} (h : line.getLast? ≠ some '\r')
    (ended : List Char) : dropReturn (line ++ returnOf ended) = line := by
  unfold returnOf
  split
  · exact dropReturn_concat line
  · rw [List.append_nil, dropReturn_eq_self h]

/-- The lines of a text of which one line has been changed. -/
theorem lines_editLine {change : List Char → List Char} {n : Nat} {text line : List Char}
    (h : (lines text)[n]? = some line) (plain : IsPlainLine (change line)) :
    lines (editLine change n text) = (lines text).set n (change line) := by
  induction n generalizing text with
  | zero =>
    by_cases feed : '\n' ∈ text
    · obtain ⟨first, below, rfl, whole⟩ := List.eq_append_cons_of_mem feed
      rw [lines_append_cons whole] at h ⊢
      obtain rfl : dropReturn first = line := by simpa using h
      have ended : '\n' ∉ change (dropReturn first) ++ returnOf first := by
        have := plain.no_feed
        unfold returnOf
        split <;> simp [this]
      rw [editLine, cut_append_cons whole]
      simp only
      rw [lines_append_cons ended, dropReturn_append_returnOf plain.no_return, List.set_cons_zero]
    · -- a text of one line
      have hne : text ≠ [] := by
        rintro rfl
        simp at h
      rw [lines_of_not_mem feed hne] at h ⊢
      obtain rfl : text = line := by simpa using h
      rw [editLine, cut_of_not_mem feed]
      simp only
      rw [lines_of_not_mem plain.no_feed plain.ne_nil, List.set_cons_zero]
  | succ n ih =>
    by_cases feed : '\n' ∈ text
    · obtain ⟨first, below, rfl, whole⟩ := List.eq_append_cons_of_mem feed
      rw [lines_append_cons whole, List.getElem?_cons_succ] at h
      rw [editLine, cut_append_cons whole]
      simp only
      rw [lines_append_cons whole, lines_append_cons whole, ih h, List.set_cons_succ]
    · -- without a feed there is one line at most, and this one is not the first
      have short : (lines text).length ≤ 1 := by
        by_cases empty : text = []
        · simp [empty]
        · simp [lines_of_not_mem feed empty]
      have := (List.getElem?_eq_some_iff.1 h).1
      omega

/-! ### Rows -/

namespace Line

/-- Changing a line that is not empty changes the row on it. -/
theorem filterMap_zipIdx_set {ls : List (List Char)} {start i : Nat} {row : Line}
    (h : ((ls.zipIdx start).filterMap fun (line, number) =>
        if line = [] then none else some (⟨number, String.ofList line⟩ : Line))[i]? = some row)
    {line : List Char} (hne : line ≠ []) :
    (((ls.set (row.number - start) line).zipIdx start).filterMap fun (line, number) =>
        if line = [] then none else some (⟨number, String.ofList line⟩ : Line)) =
      ((ls.zipIdx start).filterMap fun (line, number) =>
        if line = [] then none else some (⟨number, String.ofList line⟩ : Line)).set i
          ⟨row.number, String.ofList line⟩ := by
  -- Induction on the lines: an empty one moves the place of the row on and not its index.
  induction ls generalizing start i with
  | nil => simp at h
  | cons l ls ih =>
    by_cases hl : l = []
    · simp only [List.zipIdx_cons, List.filterMap_cons, hl, if_true] at h ⊢
      have lower := (getElem?_filterMap_zipIdx h).1
      have next : row.number - start = row.number - (start + 1) + 1 := by omega
      simp only [next, List.set_cons_succ, List.zipIdx_cons, List.filterMap_cons, if_true, ih h]
    · simp only [List.zipIdx_cons, List.filterMap_cons, hl, if_false] at h ⊢
      cases i with
      | zero =>
        simp only [List.getElem?_cons_zero, Option.some.injEq] at h
        subst h
        simp [hne]
      | succ i =>
        have lower := (getElem?_filterMap_zipIdx h).1
        have next : row.number - start = row.number - (start + 1) + 1 := by omega
        simp only [next, List.set_cons_succ, List.zipIdx_cons, List.filterMap_cons, hl, if_false]
        rw [ih h]

/-- The rows of a text of which one line has been changed. -/
theorem ofText_editLine {text : String} {i : Nat} {row : Line} (h : (ofText text)[i]? = some row)
    {change : List Char → List Char} (plain : IsPlainLine (change row.text.toList)) :
    ofText (String.ofList (editLine change (row.number - 1) text.toList)) =
      (ofText text).set i ⟨row.number, String.ofList (change row.text.toList)⟩ := by
  obtain ⟨-, line, -⟩ := getElem?_ofText h
  rw [ofText, String.toList_ofList, lines_editLine line plain]
  exact filterMap_zipIdx_set h plain.ne_nil

end Line

end FilterLang
