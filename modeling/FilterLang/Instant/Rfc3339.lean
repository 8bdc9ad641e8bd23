import FilterLang.Instant.Basic

namespace FilterLang

/-!
# Instant — the RFC 3339 reader

* `Instant.ofRfc3339?` — reads `dddd-dd-ddTdd:dd:dd`, an optional fraction of a second and an
  offset, and nothing else. Text is checked from left to right and the first fault is reported.
* `Instant.Fault` — the faults, with their texts.
-/

namespace Instant

/-- Why a text is no RFC 3339 date. -/
inductive Fault where
  /-- The text ends too early. -/
  | tooShort
  /-- A character stands where it may not. -/
  | malformed
  /-- A number is too large or too small. -/
  | outOfRange
  /-- Something follows the date. -/
  | leftOver
deriving DecidableEq, Repr

/-- The text of a fault. -/
def Fault.message : Fault → String
  | .tooShort => "premature end of input"
  | .malformed => "input contains invalid characters"
  | .outOfRange => "input is out of range"
  | .leftOver => "trailing input"

/-! ### Parts of the form -/

/-- Exactly `count` digits: their number and the rest of the text. -/
def fixedDigits (count : Nat) (text : List Char) : Except Fault (Nat × List Char) :=
  let digits := text.take count
  if digits.length = count ∧ digits.all Char.isDigit then
    .ok (readDigits digits, text.drop count)
  else .error .malformed

/-- One character out of `allowed`: the rest of the text. -/
def oneOf (allowed : List Char) : List Char → Except Fault (List Char)
  | c :: rest => if c ∈ allowed then .ok rest else .error .malformed
  | [] => .error .malformed

/-- The nanoseconds that the digits of a fraction write; digits after the ninth do not count. -/
def fractionNanos (digits : List Char) : Nat :=
  let read := digits.take 9
  readDigits read * Nat.pow 10 (9 - read.length)

/-- The fraction of a second, if the text starts with a point. -/
def fraction : List Char → Except Fault (Nat × List Char)
  | '.' :: rest =>
    match leadingDigits rest, rest with
    | [], [] => .error .tooShort
    | [], _ => .error .malformed
    | digits, _ => .ok (fractionNanos digits, afterDigits rest)
  | text => .ok (0, text)

/-- Two characters of a number with two digits. A lone character ends the text too early if it
takes one byte, and stands where it may not if it takes more. -/
def offsetPair : List Char → Except Fault (Char × Char × List Char)
  | a :: b :: rest => .ok (a, b, rest)
  | [a] => .error (if a.utf8Size = 1 then .tooShort else .malformed)
  | [] => .error .tooShort

/-- The minutes of an offset: they are checked while they are read. -/
def offsetMinutes (text : List Char) : Except Fault (Nat × List Char) := do
  let (a, b, rest) ← offsetPair text
  if a.isDigit ∧ b.isDigit then
    if a.toNat < '6'.toNat then .ok (readDigits [a, b], rest) else .error .outOfRange
  else .error .malformed

/-- The offset from UTC in minutes at the end of a text. -/
def offset : List Char → Except Fault Int
  | [] => .error .tooShort
  | c :: rest =>
    if c = 'Z' ∨ c = 'z' then
      if rest = [] then .ok 0 else .error .leftOver
    else if c = '+' ∨ c = '-' ∨ c = '\u2212' then do
      let (a, b, rest) ← offsetPair rest
      if ¬(a.isDigit ∧ b.isDigit) then throw .malformed
      let rest ← match rest with
        | [] => throw .tooShort
        | ':' :: rest => pure rest
        | _ => throw .malformed
      let (minutes, rest) ← offsetMinutes rest
      if rest ≠ [] then throw .leftOver
      let hours := readDigits [a, b]
      if 24 ≤ hours then throw .outOfRange
      let total : Int := hours * 60 + minutes
      pure (if c = '+' then total else -total)
    else .error .malformed

/-! ### The reader -/

/-- The date at the start of a text. -/
def rfc3339Day (text : List Char) : Except Fault (Day × List Char) := do
  let (year, text) ← fixedDigits 4 text
  let text ← oneOf ['-'] text
  let (month, text) ← fixedDigits 2 text
  let text ← oneOf ['-'] text
  let (day, text) ← fixedDigits 2 text
  let date : Day := ⟨year, month, day⟩
  if date.Exists then pure (date, text) else throw .outOfRange

/-- The time of day at the start of a text. -/
def rfc3339Time (text : List Char) : Except Fault (TimeOfDay × List Char) := do
  let (hour, text) ← fixedDigits 2 text
  let text ← oneOf [':'] text
  let (minute, text) ← fixedDigits 2 text
  let text ← oneOf [':'] text
  let (second, text) ← fixedDigits 2 text
  let (nanos, text) ← fraction text
  match TimeOfDay.of? hour minute second nanos with
  | some time => pure (time, text)
  | none => throw .outOfRange

/-- The number of bytes that a text takes in UTF-8. -/
def byteLength (text : List Char) : Nat := (String.ofList text).utf8ByteSize

/-- The instant that an RFC 3339 date writes. The shortest date and time take 19 bytes. -/
def ofRfc3339? (text : List Char) : Except Fault Instant := do
  if byteLength text < 19 then throw .tooShort
  let (date, text) ← rfc3339Day text
  let text ← oneOf ['T', 't', ' '] text
  let (time, text) ← rfc3339Time text
  let offset ← offset text
  pure ((atTime date time).addMinutes (-offset))

end Instant

end FilterLang
