import FilterLang.Text.Blank
import FilterLang.Instant.Rfc3339

namespace FilterLang

/-!
# Instant — date literals

A date literal is an RFC 3339 date, a date and time without an offset (read as UTC), or a day in
one of several spellings (midnight in UTC).

* `Item` — one part of a spelling; a spelling is a list of them.
* `dateTimeForms`, `dayForms` — the spellings, in the order in which they are tried.
* `Instant.ofForm?` — reads a text by one spelling.
* `Instant.ofLiteral?` — reads a text by the first spelling that fits, to the millisecond.
-/

namespace Instant

/-- One part of the spelling of a date. -/
inductive Item where
  /-- A year: up to four digits, or a sign and any number of digits. -/
  | year
  /-- Two digits at most, as the others below. -/
  | month
  | day
  | hour
  | minute
  | second
  /-- A point and the fraction of a second, or nothing. -/
  | fraction
  /-- The first three letters of an English month. -/
  | shortMonth
  /-- The same, and the rest of the name if it follows. -/
  | longMonth
  /-- Any number of blanks. -/
  | gap
  /-- A fixed character. -/
  | mark (c : Char)
deriving DecidableEq, Repr

/-- What has been read of a date; parts that a spelling lacks are those of midnight. -/
structure Parts where
  year : Int
  month : Nat
  day : Nat
  hour : Nat
  minute : Nat
  second : Nat
  nanos : Nat
deriving DecidableEq, Repr

/-- Nothing has been read yet. -/
def Parts.start : Parts := ⟨0, 0, 0, 0, 0, 0, 0⟩

/-! ### Months -/

/-- The English months: three letters, and the letters that complete the name. -/
def monthNames : List (String × String) :=
  [("jan", "uary"), ("feb", "ruary"), ("mar", "ch"), ("apr", "il"), ("may", ""), ("jun", "e"),
    ("jul", "y"), ("aug", "ust"), ("sep", "tember"), ("oct", "ober"), ("nov", "ember"),
    ("dec", "ember")]

/-- The text after `word`, if it starts with it in any case of the ASCII letters. -/
def afterWord? (word text : List Char) : Option (List Char) :=
  if (text.take word.length).map Char.toLower = word then some (text.drop word.length) else none

/-- The month, from 1, whose first three letters a text starts with; the letters that complete its
name; and the rest of the text. -/
def monthName? (text : List Char) : Option (Nat × List Char × List Char) :=
  (monthNames.zipIdx 1).findSome? fun ((short, completion), month) =>
    (afterWord? short.toList text).map (month, completion.toList, ·)

/-! ### Reading by a spelling -/

/-- A number of up to `width` digits after any blanks, and the rest of the text. -/
def number? (width : Nat) (text : List Char) : Option (Nat × List Char) :=
  let text := trimStart text
  match (leadingDigits text).take width with
  | [] => none
  | digits => some (readDigits digits, text.drop digits.length)

/-- A sign and the digits after it. -/
def signedYear? (text : List Char) : Option (Nat × List Char) :=
  match leadingDigits text with
  | [] => none
  | digits => some (readDigits digits, afterDigits text)

/-- A year after any blanks, and the rest of the text. -/
def year? (text : List Char) : Option (Int × List Char) :=
  match trimStart text with
  | '-' :: rest => (signedYear? rest).map fun (n, rest) => (-n, rest)
  | '+' :: rest => (signedYear? rest).map fun (n, rest) => (n, rest)
  | text => (number? 4 text).map fun (n, rest) => (n, rest)

/-- Reads one part of a spelling. -/
def Item.read? (item : Item) (parts : Parts) (text : List Char) : Option (Parts × List Char) :=
  match item with
  | .year => (year? text).map fun (n, rest) => ({ parts with year := n }, rest)
  | .month => (number? 2 text).map fun (n, rest) => ({ parts with month := n }, rest)
  | .day => (number? 2 text).map fun (n, rest) => ({ parts with day := n }, rest)
  | .hour => (number? 2 text).map fun (n, rest) => ({ parts with hour := n }, rest)
  | .minute => (number? 2 text).map fun (n, rest) => ({ parts with minute := n }, rest)
  | .second => (number? 2 text).map fun (n, rest) => ({ parts with second := n }, rest)
  | .fraction => (Instant.fraction text).toOption.map fun (n, rest) =>
      ({ parts with nanos := n }, rest)
  | .shortMonth => (monthName? text).map fun (n, _, rest) => ({ parts with month := n }, rest)
  | .longMonth => (monthName? text).map fun (n, completion, rest) =>
      ({ parts with month := n }, (afterWord? completion rest).getD rest)
  | .gap => some (parts, trimStart text)
  | .mark c => match text with
    | d :: rest => if d = c then some (parts, rest) else none
    | [] => none

/-- Reads the parts of a spelling one after the other; nothing may remain. -/
def readItems? : List Item → Parts → List Char → Option Parts
  | [], parts, text => if text = [] then some parts else none
  | item :: items, parts, text => do
    let (parts, text) ← item.read? parts text
    readItems? items parts text

/-- The instant that the parts make up, if there is such a day and such a time. -/
def Parts.instant? (p : Parts) : Option Instant := do
  let day : Day := ⟨p.year, p.month, p.day⟩
  let time ← TimeOfDay.of? p.hour p.minute p.second p.nanos
  if day.Exists then some (atTime day time) else none

/-- Reads a text by one spelling, in UTC. -/
def ofForm? (form : List Item) (text : List Char) : Option Instant :=
  (readItems? form .start text).bind Parts.instant?

/-! ### The spellings -/

/-- `2024-01-05`. -/
def isoDay : List Item := [.year, .mark '-', .month, .mark '-', .day]

/-- `12:30`. -/
def clock : List Item := [.hour, .mark ':', .minute]

/-- `12:30:00`, and a fraction if there is one. -/
def clockWithSeconds : List Item := clock ++ [.mark ':', .second, .fraction]

/-- A day and a time. -/
def dateTimeForms : List (List Item) :=
  [isoDay ++ [.mark 'T'] ++ clockWithSeconds, isoDay ++ [.gap] ++ clockWithSeconds,
    isoDay ++ [.mark 'T'] ++ clock, isoDay ++ [.gap] ++ clock]

/-- A day: `2024-01-05`, `Jan 5 2024`, `Jan 5, 2024`, the same two with the full name of the month,
and `01/05/2024`. -/
def dayForms : List (List Item) :=
  [isoDay,
    [.shortMonth, .gap, .day, .gap, .year], [.shortMonth, .gap, .day, .mark ',', .gap, .year],
    [.longMonth, .gap, .day, .gap, .year], [.longMonth, .gap, .day, .mark ',', .gap, .year],
    [.month, .mark '/', .day, .mark '/', .year]]

/-- A text without a `Z` at its end. -/
def dropZone (text : List Char) : List Char :=
  if text.getLast? = some 'Z' then text.dropLast else text

/-- The readings of a date literal, in the order in which they are tried. -/
def readings (text : List Char) : List (Option Instant) :=
  (ofRfc3339? text).toOption :: dateTimeForms.map (ofForm? · (dropZone text)) ++
    dayForms.map (ofForm? · text)

/-- The instant that a date literal writes, to the millisecond. Blanks around it do not count. -/
def ofLiteral? (literal : List Char) : Option Instant :=
  ((readings (trim literal)).findSome? id).map truncated

/-- A literal writes whole milliseconds, as what is finer is cut off. -/
theorem isWholeMillis_of_ofLiteral? {literal : List Char} {i : Instant}
    (h : ofLiteral? literal = some i) : i.IsWholeMillis := by
  obtain ⟨j, -, rfl⟩ := Option.map_eq_some_iff.1 h
  exact isWholeMillis_truncated j

end Instant

end FilterLang
