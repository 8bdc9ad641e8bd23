import FilterLang.Text.Lines

namespace FilterLang

/-!
# Text — lines of a text, and texts made of lines

Main statements:

* `cut_of_splitOn` — what `cut` separates are the first piece of `List.splitOn` and all others.
* `lines_append_cons`, `lines_of_not_mem` — the lines of a text, from the first one on.
* `AreLines` — the lines of a text, said without cutting it; `areLines_iff` says that `lines` gives
  them.
* `filter_lines_intercalate` — lines with line feeds between them can be told apart again.
* `Line.texts_ofText` — the rows of a text are its lines without the empty ones.
* `Line.texts_ofText_intercalate` — so lines with line feeds between them are rows, the empty ones
  aside.
* `Line.getElem?_ofText` — where a row stands among the lines of its text.
-/

/-! ### Pieces -/

/-- No piece holds the separator. -/
theorem not_mem_of_mem_splitOn {sep : Char} {text piece : List Char} (h : piece ∈ text.splitOn sep) :
    sep ∉ piece := by
  induction text generalizing piece with
  | nil => simp_all
  | cons c rest ih =>
    rw [List.splitOn_cons_eq_if_modifyHead] at h
    split at h
    · rcases List.mem_cons.1 h with rfl | h
      · exact List.not_mem_nil
      · exact ih h
    · next hc =>
      -- the character joins the first piece of the rest
      obtain ⟨first, pieces, hs⟩ := List.exists_cons_of_ne_nil (List.splitOn_ne_nil sep rest)
      rw [hs, List.modifyHead_cons] at h
      rw [hs] at ih
      rcases List.mem_cons.1 h with rfl | h
      · have apart : sep ≠ c := fun same => hc (beq_iff_eq.2 same.symm)
        simp [apart, ih List.mem_cons_self]
      · exact ih (List.mem_cons_of_mem _ h)

/-- Pieces hold what the text holds. -/
theorem mem_of_mem_splitOn {sep c : Char} {text piece : List Char} (hp : piece ∈ text.splitOn sep)
    (hc : c ∈ piece) : c ∈ text := by
  induction text generalizing piece with
  | nil => simp_all
  | cons d rest ih =>
    rw [List.splitOn_cons_eq_if_modifyHead] at hp
    split at hp
    · rcases List.mem_cons.1 hp with rfl | hp
      · exact absurd hc List.not_mem_nil
      · exact List.mem_cons_of_mem _ (ih hp hc)
    · -- the character joins the first piece of the rest
      obtain ⟨first, pieces, hs⟩ := List.exists_cons_of_ne_nil (List.splitOn_ne_nil sep rest)
      rw [hs, List.modifyHead_cons] at hp
      rw [hs] at ih
      rcases List.mem_cons.1 hp with rfl | hp
      · rcases List.mem_cons.1 hc with rfl | hc
        · exact List.mem_cons_self
        · exact List.mem_cons_of_mem _ (ih List.mem_cons_self hc)
      · exact List.mem_cons_of_mem _ (ih (List.mem_cons_of_mem _ hp) hc)

/-- A text is its pieces with the separator between them. -/
theorem eq_intercalate_of_splitOn {sep : Char} {text : List Char} {pieces : List (List Char)}
    (h : text.splitOn sep = pieces) : text = [sep].intercalate pieces := by
  rw [← h, List.intercalate_splitOn]

/-- There is one piece more than there are separators. -/
theorem length_splitOn (sep : Char) (text : List Char) :
    (text.splitOn sep).length = text.count sep + 1 := by
  induction text with
  | nil => rfl
  | cons c rest ih =>
    rw [List.splitOn_cons_eq_if_modifyHead]
    by_cases hc : c = sep <;> simp [hc, ih]

/-- The part before the first separator is the first piece, and the other pieces are what follows. -/
theorem cut_of_splitOn {sep : Char} {text piece : List Char} {pieces : List (List Char)}
    (h : text.splitOn sep = piece :: pieces) :
    cut sep text = (piece, if pieces = [] then none else some ([sep].intercalate pieces)) := by
  induction text generalizing piece pieces with
  | nil => simp_all [cut]
  | cons c rest ih =>
    obtain ⟨first, others, hs⟩ := List.exists_cons_of_ne_nil (List.splitOn_ne_nil sep rest)
    rw [List.splitOn_cons_eq_if_modifyHead] at h
    -- a separator ends the first piece, and any other character is a part of it
    by_cases hc : c = sep
    · rw [if_pos (beq_iff_eq.2 hc), List.cons.injEq] at h
      obtain ⟨rfl, rfl⟩ := h
      rw [List.intercalate_splitOn]
      simp [cut, hc]
    · rw [if_neg (mt beq_iff_eq.1 hc), hs, List.modifyHead_cons, List.cons.injEq] at h
      obtain ⟨rfl, rfl⟩ := h
      simp [cut, hc, ih hs]

/-! ### Lines -/

@[simp] theorem lines_nil : lines [] = [] := by simp [lines, endedLines]

/-- A line ends where the next line feed stands. -/
theorem lines_append_cons {line : List Char} (h : '\n' ∉ line) (rest : List Char) :
    lines (line ++ '\n' :: rest) = dropReturn line :: lines rest := by
  obtain ⟨piece, pieces, hs⟩ := List.exists_cons_of_ne_nil (List.splitOn_ne_nil '\n' rest)
  simp [lines, List.splitOn_append_cons_self_of_not_mem h, hs, endedLines]

/-- Without a line feed, all of a text is one line. -/
theorem lines_of_not_mem {text : List Char} (h : '\n' ∉ text) (hne : text ≠ []) :
    lines text = [text] := by
  simp [lines, List.splitOn_eq_singleton h, endedLines, hne]

/-- A line without a carriage return at its end stays as it is. -/
theorem dropReturn_eq_self {line : List Char} (h : line.getLast? ≠ some '\r') :
    dropReturn line = line := by
  simp [dropReturn, h]

/-- A carriage return before a line feed is not a part of the line. -/
theorem dropReturn_concat (line : List Char) : dropReturn (line ++ ['\r']) = line := by
  simp [dropReturn]

/-- No token is lost with a carriage return. -/
theorem length_splitOn_dropReturn (line : List Char) :
    ((dropReturn line).splitOn ' ').length = (line.splitOn ' ').length := by
  unfold dropReturn
  split
  next last =>
    obtain ⟨before, rfl⟩ := List.getLast?_eq_some_iff.1 last
    simp [length_splitOn]
  next => rfl

theorem mem_of_mem_dropReturn {line : List Char} {c : Char} (h : c ∈ dropReturn line) :
    c ∈ line := by
  unfold dropReturn at h
  split at h
  · exact List.dropLast_subset _ h
  · exact h

/-- The lines of a text are pieces of it, except for carriage returns at their ends. -/
theorem not_mem_of_mem_endedLines {pieces : List (List Char)} {line : List Char}
    (h : line ∈ endedLines pieces) (hp : ∀ piece ∈ pieces, '\n' ∉ piece) : '\n' ∉ line := by
  induction pieces with
  | nil => simp [endedLines] at h
  | cons piece pieces ih =>
    have first := hp piece List.mem_cons_self
    cases pieces with
    | nil =>
      -- what follows the last line feed is a line only if it is not empty
      simp only [endedLines] at h
      split at h
      · simp at h
      · rwa [List.mem_singleton.1 h]
    | cons next rest =>
      rcases List.mem_cons.1 h with rfl | h
      · exact fun hc => first (mem_of_mem_dropReturn hc)
      · exact ih h fun q hq => hp q (List.mem_cons_of_mem _ hq)

/-- No line holds a line feed. -/
theorem not_mem_of_mem_lines {text line : List Char} (h : line ∈ lines text) : '\n' ∉ line :=
  not_mem_of_mem_endedLines h fun _ => not_mem_of_mem_splitOn

/-- Lines with line feeds between them can be told apart again, the empty ones aside. A carriage
return at the end of a line would be taken for a part of the line break. -/
theorem filter_lines_intercalate {pieces : List (List Char)}
    (h : ∀ piece ∈ pieces, '\n' ∉ piece ∧ piece.getLast? ≠ some '\r') :
    (lines (['\n'].intercalate pieces)).filter (· ≠ []) = pieces.filter (· ≠ []) := by
  induction pieces with
  | nil => simp
  | cons piece pieces ih =>
    obtain ⟨feed, ret⟩ := h piece List.mem_cons_self
    cases pieces with
    | nil =>
      -- the last line is not ended, and it is a line only if it is not empty
      by_cases empty : piece = []
      · simp [empty]
      · rw [List.intercalate_singleton, lines_of_not_mem feed empty]
    | cons next rest =>
      have tail := ih fun q hq => h q (List.mem_cons_of_mem _ hq)
      rw [List.intercalate_cons_cons, List.append_assoc, List.singleton_append,
        lines_append_cons feed, dropReturn_eq_self ret]
      simp only [List.filter_cons (x := piece), tail]

/-- What the lines of a text are, said of the text itself. A line holds no line feed and is ended by one,
which takes one carriage return before it along. The last line may stand without a line feed, and it
is not empty then. -/
inductive AreLines : List Char → List (List Char) → Prop where
  | nil : AreLines [] []
  | last {line : List Char} : line ≠ [] → '\n' ∉ line → AreLines line [line]
  | feed {line rest : List Char} {later : List (List Char)} : '\n' ∉ line →
      line.getLast? ≠ some '\r' → AreLines rest later → AreLines (line ++ '\n' :: rest) (line :: later)
  | returnFeed {line rest : List Char} {later : List (List Char)} : '\n' ∉ line →
      AreLines rest later → AreLines (line ++ '\r' :: '\n' :: rest) (line :: later)

/-- The pieces of a text between its line feeds make its lines. -/
theorem areLines_endedLines {pieces : List (List Char)} (h : ∀ piece ∈ pieces, '\n' ∉ piece) :
    AreLines (['\n'].intercalate pieces) (endedLines pieces) := by
  induction pieces with
  | nil => exact .nil
  | cons piece pieces ih =>
    obtain ⟨feed, later⟩ := List.forall_mem_cons.1 h
    cases pieces with
    | nil =>
      -- what follows the last line feed is a line only if it is not empty
      rw [List.intercalate_singleton, endedLines]
      split
      next empty => rw [empty]; exact .nil
      next some => exact .last some feed
    | cons next rest =>
      rw [List.intercalate_cons_cons, List.append_assoc, List.singleton_append, endedLines]
      by_cases ret : piece.getLast? = some '\r'
      · obtain ⟨line, rfl⟩ := List.getLast?_eq_some_iff.1 ret
        rw [dropReturn_concat, List.append_assoc, List.singleton_append]
        exact .returnFeed (fun inside => feed (List.mem_append_left _ inside)) (ih later)
      · rw [dropReturn_eq_self ret]
        exact .feed feed ret (ih later)

/-- A text has the lines that `lines` gives, and no others. -/
theorem areLines_iff {text : List Char} {found : List (List Char)} :
    AreLines text found ↔ lines text = found := by
  constructor
  · -- induction on the lines found: each is what `lines` takes off first
    intro h
    induction h with
    | nil => exact lines_nil
    | last some feed => exact lines_of_not_mem feed some
    | feed feed ret _ ih => rw [lines_append_cons feed, dropReturn_eq_self ret, ih]
    | @returnFeed line rest _ feed _ ih =>
      have whole : '\n' ∉ line ++ ['\r'] := by simp [feed]
      have next := lines_append_cons whole rest
      rwa [dropReturn_concat, ih, List.append_assoc, List.singleton_append] at next
  · rintro rfl
    -- the text is its pieces joined by line feeds, and those pieces end in these lines
    have feeds : ∀ piece ∈ text.splitOn '\n', '\n' ∉ piece := fun _ => not_mem_of_mem_splitOn
    have whole := areLines_endedLines feeds
    rwa [List.intercalate_splitOn] at whole

/-- A line that can stand anywhere in a text: it is not empty, and its end is not taken for a part
of a line break. -/
structure IsPlainLine (line : List Char) : Prop where
  ne_nil : line ≠ []
  no_feed : '\n' ∉ line
  no_return : line.getLast? ≠ some '\r'

/-! ### Rows -/

namespace Line

/-- The rows of a text are its lines without the empty ones. -/
theorem texts_ofText (text : String) :
    (ofText text).map (·.text) = ((lines text.toList).filter (· ≠ [])).map String.ofList := by
  unfold ofText
  generalize lines text.toList = ls
  generalize 1 = start
  induction ls generalizing start with
  | nil => rfl
  | cons l ls ih =>
    have rest := ih (start + 1)
    by_cases hl : l = []
    · simpa [hl] using rest
    · simpa [hl] using rest

/-- The rows of a text that is made of lines are these lines without the empty ones. -/
theorem texts_ofText_intercalate {texts : List String}
    (h : ∀ t ∈ texts, '\n' ∉ t.toList ∧ t.toList.getLast? ≠ some '\r') :
    (ofText ("\n".intercalate texts)).map (·.text) = texts.filter (· ≠ "") := by
  have whole : ∀ l ∈ texts.map String.toList, '\n' ∉ l ∧ l.getLast? ≠ some '\r' := by
    intro l hl
    obtain ⟨t, ht, rfl⟩ := List.mem_map.1 hl
    exact h t ht
  have joined : ("\n".intercalate texts).toList =
      ['\n'].intercalate (texts.map String.toList) := by
    rw [String.toList_intercalate]; rfl
  rw [texts_ofText, joined, filter_lines_intercalate whole, List.filter_map, List.map_map]
  simp [Function.comp_def]

/-- So they are all of them, if none is empty. -/
theorem ofText_intercalate {texts : List String} (h : ∀ t ∈ texts, IsPlainLine t.toList) :
    (ofText ("\n".intercalate texts)).map (·.text) = texts := by
  rw [texts_ofText_intercalate fun t ht => ⟨(h t ht).no_feed, (h t ht).no_return⟩,
    List.filter_eq_self]
  intro t ht
  simpa using (h t ht).ne_nil

/-- A row is a line of its text that is not empty. -/
theorem mem_lines_of_mem_ofText {text : String} {row : Line} (h : row ∈ ofText text) :
    row.text.toList ∈ lines text.toList ∧ row.text ≠ "" := by
  obtain ⟨⟨line, number⟩, hmem, hrow⟩ := List.mem_filterMap.1 h
  simp only at hrow
  split at hrow
  · cases hrow
  · next hne =>
    cases hrow
    exact ⟨by simpa using List.fst_mem_of_mem_zipIdx hmem, by simpa using hne⟩

/-- The place of a row among the lines from which `start` on numbers are counted. -/
theorem getElem?_filterMap_zipIdx {ls : List (List Char)} {start i : Nat} {row : Line}
    (h : ((ls.zipIdx start).filterMap fun (line, number) =>
        if line = [] then none else some (⟨number, String.ofList line⟩ : Line))[i]? = some row) :
    start ≤ row.number ∧ ls[row.number - start]? = some row.text.toList ∧
      (ls.take (row.number - start)).countP (· ≠ []) = i := by
  induction ls generalizing start i with
  | nil => simp at h
  | cons l ls ih =>
    -- an empty line is no row, but it counts as a line
    by_cases hl : l = []
    · simp only [List.zipIdx_cons, List.filterMap_cons, hl, if_true] at h
      obtain ⟨lower, line, count⟩ := ih h
      have next : row.number - start = row.number - (start + 1) + 1 := by omega
      refine ⟨by omega, ?_, ?_⟩
      · rw [next]; simpa using line
      · rw [next]; simpa [hl] using count
    · simp only [List.zipIdx_cons, List.filterMap_cons, hl, if_false] at h
      cases i with
      | zero =>
        simp only [List.getElem?_cons_zero, Option.some.injEq] at h
        subst h
        simp
      | succ i =>
        obtain ⟨lower, line, count⟩ := ih h
        have next : row.number - start = row.number - (start + 1) + 1 := by omega
        refine ⟨by omega, ?_, ?_⟩
        · rw [next]; simpa using line
        · rw [next]; simpa [hl] using count

/-- The row at place `i` is a line of the text, and `i` lines before it are not empty. -/
theorem getElem?_ofText {text : String} {i : Nat} {row : Line} (h : (ofText text)[i]? = some row) :
    1 ≤ row.number ∧ (lines text.toList)[row.number - 1]? = some row.text.toList ∧
      ((lines text.toList).take (row.number - 1)).countP (· ≠ []) = i :=
  getElem?_filterMap_zipIdx h

end Line

end FilterLang
