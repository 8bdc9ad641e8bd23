import FilterLang.Proofs.Text.Below

namespace FilterLang

/-!
# Text — line breaks with and without a carriage return

A line break is a line feed, or a carriage return and a line feed. A text may mix both.

* `withReturns` — a text with carriage returns put before some of its line feeds.
* `byPieces` — a text is its last piece alone, or a piece above others: induction on the pieces.
* `splitOn_withReturns` — the pieces of such a text: each ended one may have got a carriage return.
* `lines_withReturns` — its lines are those of the text without these carriage returns.
-/

/-- A text with a carriage return put before each line feed that is chosen. The line feeds are counted
from 0. -/
def withReturns (chosen : Nat → Bool) : List Char → List Char
  | [] => []
  | c :: rest =>
    if c = '\n' then
      (if chosen 0 then ['\r', '\n'] else ['\n']) ++ withReturns (fun n => chosen (n + 1)) rest
    else c :: withReturns chosen rest

/-! ### Induction on the pieces of a text -/

/-- Induction on the pieces of a text: it is its last piece alone, or one piece above others. -/
@[elab_as_elim]
theorem byPieces {motive : List Char → List (List Char) → List Char → Prop}
    (last : ∀ text, '\n' ∉ text → motive text [] text)
    (line : ∀ line rest pieces last, '\n' ∉ line → motive rest pieces last →
      motive (line ++ '\n' :: rest) (line :: pieces) last)
    {text : List Char} {pieces : List (List Char)} {tail : List Char}
    (h : text.splitOn '\n' = pieces ++ [tail]) : motive text pieces tail := by
  have whole : ∀ piece ∈ pieces ++ [tail], '\n' ∉ piece := fun _ hp =>
    not_mem_of_mem_splitOn (h ▸ hp)
  rw [eq_intercalate_of_splitOn h]
  clear h
  -- Induction on the pieces before the last, each of them a line that ends in a feed.
  induction pieces with
  | nil =>
    rw [List.nil_append, List.intercalate_singleton]
    exact last tail (whole tail (by simp))
  | cons piece pieces ih =>
    rw [List.cons_append] at whole ⊢
    obtain ⟨first, others⟩ := List.forall_mem_cons.1 whole
    rw [List.intercalate_cons_of_ne_nil (by simp), List.append_assoc, List.singleton_append]
    exact line piece _ pieces tail first (ih others)

section

variable {text last : List Char} {pieces : List (List Char)}

/-- What is no part of a text is no part of its pieces. -/
theorem not_mem_of_mem_pieces (h : text.splitOn '\n' = pieces ++ [last]) {c : Char}
    (absent : c ∉ text) : (∀ piece ∈ pieces, c ∉ piece) ∧ c ∉ last := by
  have held : ∀ piece ∈ pieces ++ [last], c ∉ piece := fun piece hp hc =>
    absent (mem_of_mem_splitOn (h ▸ hp) hc)
  exact ⟨fun piece hp => held piece (List.mem_append_left _ hp),
    held last (List.mem_append_right _ (List.mem_singleton_self last))⟩

/-- What is put behind a text is put behind its last piece. -/
theorem splitOn_append_of_not_mem (h : text.splitOn '\n' = pieces ++ [last]) {more : List Char}
    (feed : '\n' ∉ more) : (text ++ more).splitOn '\n' = pieces ++ [last ++ more] := by
  refine byPieces (fun text whole => ?_) (fun line rest pieces last whole ih => ?_) h
  · exact List.splitOn_eq_singleton (by simp [whole, feed])
  · rw [List.append_assoc, List.cons_append, List.splitOn_append_cons_self_of_not_mem whole, ih,
      List.cons_append]

end

/-! ### Carriage returns before line feeds -/

/-- What is put before the line feed of a number. -/
def returnAt (chosen : Nat → Bool) (n : Nat) : List Char := if chosen n then ['\r'] else []

theorem withReturns_of_not_mem {text : List Char} (h : '\n' ∉ text) (chosen : Nat → Bool) :
    withReturns chosen text = text := by
  induction text with
  | nil => rfl
  | cons c rest ih =>
    simp only [List.mem_cons, not_or] at h
    rw [withReturns, if_neg (Ne.symm h.1), ih h.2]

/-- The line feeds of the second text are counted on from those of the first one. -/
theorem withReturns_append (chosen : Nat → Bool) (first second : List Char) :
    withReturns chosen (first ++ second) =
      withReturns chosen first ++ withReturns (fun n => chosen (n + first.count '\n')) second := by
  induction first generalizing chosen with
  | nil => rfl
  | cons c first ih =>
    simp only [List.cons_append, withReturns]
    split
    next feed => simp [ih, feed, Nat.add_assoc]
    next other => simp [ih, other]

/-- A line break gets the carriage return that is chosen for it. -/
theorem withReturns_append_cons (chosen : Nat → Bool) (above below : List Char) :
    withReturns chosen (above ++ '\n' :: below) =
      (withReturns chosen above ++ returnAt chosen (above.count '\n')) ++
        '\n' :: withReturns (fun n => chosen (n + 1 + above.count '\n')) below := by
  rw [withReturns_append, withReturns, if_pos rfl, Nat.zero_add, returnAt]
  split <;> simp

theorem not_mem_append_returnAt {line : List Char} (h : '\n' ∉ line) (chosen : Nat → Bool) (n : Nat) :
    '\n' ∉ line ++ returnAt chosen n := by
  unfold returnAt
  split <;> simp [h]

/-- A line break takes along the carriage return that was put before it. -/
theorem dropReturn_append_returnAt {line : List Char} (h : '\r' ∉ line) (chosen : Nat → Bool)
    (n : Nat) : dropReturn (line ++ returnAt chosen n) = line := by
  unfold returnAt
  split
  · exact dropReturn_concat line
  · rw [List.append_nil]
    exact dropReturn_eq_self fun last => h (List.mem_of_getLast? last)

/-! ### Pieces and lines -/

section

variable {text last : List Char} {pieces : List (List Char)}

/-- The pieces of a text with carriage returns: those of the text without them, each of which may
have got one, but for the last. -/
theorem splitOn_withReturns (h : text.splitOn '\n' = pieces ++ [last]) (chosen : Nat → Bool) :
    (withReturns chosen text).splitOn '\n' =
      pieces.mapIdx (fun n piece => piece ++ returnAt chosen n) ++ [last] := by
  revert chosen
  refine byPieces (fun text feed chosen => ?_) (fun line rest pieces last feed ih chosen => ?_) h
  · rw [withReturns_of_not_mem feed, List.splitOn_eq_singleton feed]
    rfl
  · rw [withReturns_append_cons, withReturns_of_not_mem feed, List.count_eq_zero_of_not_mem feed,
      List.splitOn_append_cons_self_of_not_mem (not_mem_append_returnAt feed chosen 0), ih,
      List.mapIdx_cons, List.cons_append]
    rfl

/-- In a text without carriage returns, a line break takes along what was put before it, and nothing
else. -/
theorem map_dropReturn_mapIdx (h : ∀ piece ∈ pieces, '\r' ∉ piece) (chosen : Nat → Bool) :
    (pieces.mapIdx fun n piece => piece ++ returnAt chosen n).map dropReturn = pieces := by
  apply List.ext_getElem
  · simp
  · intro n _ hn
    rw [List.getElem_map, List.getElem_mapIdx]
    exact dropReturn_append_returnAt (h _ (List.getElem_mem hn)) chosen n

/-- Without carriage returns, no line loses one. -/
theorem map_dropReturn_eq_self (h : ∀ piece ∈ pieces, '\r' ∉ piece) :
    pieces.map dropReturn = pieces := by
  refine (List.map_congr_left fun piece hp => ?_).trans (List.map_id pieces)
  exact dropReturn_eq_self fun last => h piece hp (List.mem_of_getLast? last)

/-- The lines of a text without carriage returns. -/
theorem lines_of_splitOn_plain (h : text.splitOn '\n' = pieces ++ [last]) (plain : '\r' ∉ text) :
    lines text = pieces ++ if last = [] then [] else [last] := by
  rw [lines_of_splitOn h, map_dropReturn_eq_self (not_mem_of_mem_pieces h plain).1]

/-- A carriage return that no line feed follows is kept, and makes a line of its own at least. -/
theorem lines_withReturns_append_return (h : text.splitOn '\n' = pieces ++ [last])
    (plain : '\r' ∉ text) (chosen : Nat → Bool) :
    lines (withReturns chosen text ++ ['\r']) = pieces ++ [last ++ ['\r']] := by
  have feed : '\n' ∉ ['\r'] := by decide
  have cut := splitOn_append_of_not_mem (splitOn_withReturns h chosen) feed
  rw [lines_of_splitOn cut, map_dropReturn_mapIdx (not_mem_of_mem_pieces h plain).1,
    if_neg (by simp)]

/-- **Lines and line breaks.** A text without carriage returns has the same lines when some of them are
put before its line feeds. -/
theorem lines_withReturns (plain : '\r' ∉ text) (chosen : Nat → Bool) :
    lines (withReturns chosen text) = lines text := by
  obtain ⟨pieces, last, hs⟩ := exists_last_piece '\n' text
  rw [lines_of_splitOn (splitOn_withReturns hs chosen), lines_of_splitOn_plain hs plain,
    map_dropReturn_mapIdx (not_mem_of_mem_pieces hs plain).1]

end

end FilterLang
