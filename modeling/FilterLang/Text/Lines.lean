namespace FilterLang

/-!
# Text — lines and pieces

Query text is cut at line feeds into lines, and a line is cut at single spaces into tokens. The pieces of
a text between two separators are those of `List.splitOn`: there is always one, nothing is lost, and
pieces without the separator can be told apart again.

* `cut sep text` — the part before the first `sep`, and what follows it if there is a `sep`.
* `lines text` — the lines of a text. A line feed ends a line and takes one carriage return before
  it along; text after the last line feed is a line of its own, and keeps its carriage return.
* `Line.ofText text` — the lines that are not empty, with their numbers.
* `occursIn` — whether some characters stand next to each other in a text.
-/

/-! ### Cutting at a separator -/

/-- The part of a text before the first `sep`, and the part after it if there is a `sep`. -/
def cut (sep : Char) : List Char → List Char × Option (List Char)
  | [] => ([], none)
  | c :: rest =>
    if c = sep then ([], some rest) else (c :: (cut sep rest).1, (cut sep rest).2)

/-! ### Lines -/

/-- A line that a line feed has ended, without the carriage return before that line feed. -/
def dropReturn (line : List Char) : List Char :=
  if line.getLast? = some '\r' then line.dropLast else line

/-- The lines of a text that was cut at its line feeds: each piece but the last was ended by one. -/
def endedLines : List (List Char) → List (List Char)
  | [] => []
  | [last] => if last = [] then [] else [last]
  | piece :: next :: rest => dropReturn piece :: endedLines (next :: rest)

/-- The lines of a text. -/
def lines (text : List Char) : List (List Char) := endedLines (text.splitOn '\n')

/-- A line of query text that is not empty. -/
structure Line where
  /-- Its number among all lines of the text, from 1. -/
  number : Nat
  /-- What is written on it. -/
  text : String
deriving DecidableEq, Repr

/-- The lines of `text` that are not empty, with their numbers among all lines. -/
def Line.ofText (text : String) : List Line :=
  ((lines text.toList).zipIdx 1).filterMap fun (line, number) =>
    if line = [] then none else some ⟨number, String.ofList line⟩

/-! ### Occurrence -/

/-- Whether `fragment` stands somewhere in a text. -/
def occursIn (fragment : List Char) : List Char → Bool
  | [] => fragment.isEmpty
  | c :: rest => fragment.isPrefixOf (c :: rest) || occursIn fragment rest

/-- A fragment stands somewhere in a text if the text is made of it and of what stands around it. -/
theorem occursIn_iff {fragment text : List Char} :
    occursIn fragment text = true ↔ fragment <:+: text := by
  induction text with
  | nil => simp [occursIn]
  | cons c rest ih => simp [occursIn, ih, List.infix_cons_iff]

end FilterLang
