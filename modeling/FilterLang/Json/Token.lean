import FilterLang.Json.Fault

namespace FilterLang

/-!
# Json — words, strings and numbers

The readers of the parts of a document that hold no other parts.

* `Json.next?` — the next character that is no space; it is not taken.
* `Json.word` — the letters that complete `null`, `true` or `false`.
* `Json.stringBody` — a string after its opening quote.
* `Json.number` — a number. Digits are collected in 64 bits; digits beyond do not count, and the
  double is the product or quotient of the collected digits and a power of ten, each rounded.
-/

namespace Json

/-- The characters between the parts of a document. -/
def isSpace (c : Char) : Bool := c = ' ' || c = '\n' || c = '\t' || c = '\r'

/-- The next character that is no space, if there is one. It is not taken. -/
def next? : Reader (Option Char) := fun text =>
  let text := text.dropWhile isSpace
  .ok (text.head?, text)

/-- Takes one character. -/
def skip : Reader Unit := fun text => .ok ((), text.drop 1)

/-- Takes the letters that complete a word. -/
def word : List Char → Reader Unit
  | [], text => .ok ((), text)
  | _ :: _, [] => .error .endInValue
  | letter :: letters, c :: rest =>
    if c = letter then word letters rest else .error .expectedWord

/-! ### Strings -/

/-- The value of a hexadecimal digit. -/
def hexValue? (c : Char) : Option Nat :=
  if c.isDigit then some (c.toNat - '0'.toNat)
  else if 'a' ≤ c ∧ c ≤ 'f' then some (c.toNat - 'a'.toNat + 10)
  else if 'A' ≤ c ∧ c ≤ 'F' then some (c.toNat - 'A'.toNat + 10)
  else none

/-- The four hexadecimal digits of an escape, which take four bytes. -/
def hexCode (text : List Char) : Except Fault (Nat × List Char) :=
  match text with
  | a :: b :: c :: d :: rest =>
    match hexValue? a, hexValue? b, hexValue? c, hexValue? d with
    | some a, some b, some c, some d => .ok (((a * 16 + b) * 16 + c) * 16 + d, rest)
    | _, _, _, _ => .error .invalidEscape
  | short => if (String.ofList short).utf8ByteSize < 4 then .error .endInString
    else .error .invalidEscape

/-- The low surrogate that has to follow a high one. -/
def lowSurrogate (text : List Char) : Except Fault (Nat × List Char) :=
  match text with
  | [] => .error .endInString
  | '\\' :: [] => .error .endInString
  | '\\' :: 'u' :: rest => do
    let (low, rest) ← hexCode rest
    if 0xDC00 ≤ low ∧ low ≤ 0xDFFF then pure (low, rest) else throw .unpairedLow
  | _ => .error .unpairedHigh

/-- The character of an escape that names its code, after `\u`. -/
def unicodeEscape (text : List Char) : Except Fault (Char × List Char) := do
  let (code, rest) ← hexCode text
  if 0xDC00 ≤ code ∧ code ≤ 0xDFFF then throw .unpairedLow
  else if 0xD800 ≤ code ∧ code ≤ 0xDBFF then
    let (low, rest) ← lowSurrogate rest
    pure (Char.ofNat (0x10000 + (code - 0xD800) * 0x400 + (low - 0xDC00)), rest)
  else pure (Char.ofNat code, rest)

/-- The character that a one-letter escape stands for. -/
def letterEscape? (c : Char) : Option Char :=
  if c = '"' ∨ c = '\\' ∨ c = '/' then some c
  else if c = 'b' then some '\x08'
  else if c = 'f' then some '\x0c'
  else if c = 'n' then some '\n'
  else if c = 'r' then some '\r'
  else if c = 't' then some '\t'
  else none

/-- The character of an escape, after its backslash. -/
def escape (text : List Char) : Except Fault (Char × List Char) :=
  match text with
  | [] => .error .endInString
  | c :: rest =>
    match letterEscape? c with
    | some meant => .ok (meant, rest)
    | none => if c = 'u' then unicodeEscape rest else .error .invalidEscape

/-- The characters of a string up to its closing quote, in reverse before `done`. Every step takes
a character, so the length of the text is fuel enough. -/
def stringChars : (fuel : Nat) → (done : List Char) → Reader (List Char)
  | 0, _, _ => .error .endInString
  | _, _, [] => .error .endInString
  | fuel + 1, done, c :: rest =>
    if c = '"' then .ok (done.reverse, rest)
    else if c = '\\' then
      match escape rest with
      | .ok (meant, rest) => stringChars fuel (meant :: done) rest
      | .error fault => .error fault
    else if c.toNat < 0x20 then .error .controlCharacter
    else stringChars fuel (c :: done) rest

/-- A string after its opening quote. -/
def stringBody : Reader String := fun text =>
  (stringChars text.length [] text).map fun (chars, rest) => (String.ofList chars, rest)

/-! ### Numbers -/

/-- The bound of the collected digits: it is `2 ^ 64`. -/
def significandBound : Nat := 0x10000000000000000

/-- A power of ten times a number that was collected: multiplied or divided by one rounded power of
ten at a time. A positive exponent beyond 308 is out of range, and a negative one is taken in steps
of 308, three of which lead to zero. -/
def scaled (d : Double) (exponent : Int) : (steps : Nat) → Except Fault Double
  | 0 => .ok ⟨false, 0, by decide⟩
  | steps + 1 =>
    if 308 < exponent.natAbs then
      if d.isZero then .ok d
      else if 0 ≤ exponent then .error .numberOutOfRange
      else scaled ((d.over? (.powerOfTen 308)).getD d) (exponent + 308) steps
    else if 0 ≤ exponent then
      match d.times? (.powerOfTen exponent.natAbs) with
      | some product => .ok product
      | none => .error .numberOutOfRange
    else .ok ((d.over? (.powerOfTen exponent.natAbs)).getD d)

/-- The double of collected digits and an exponent. -/
def realOf (negative : Bool) (significand : Nat) (exponent : Int) : Except Fault Json := do
  let d ← scaled (.ofNat significand) exponent 4
  pure (.real ⟨negative, d.magnitude⟩)

/-- Collects digits while they fit: the collected number, how many digits were taken, and the rest
of the text. -/
def collect : (significand : Nat) → List Char → Nat × Nat × List Char
  | significand, [] => (significand, 0, [])
  | significand, c :: rest =>
    let next := significand * 10 + (c.toNat - '0'.toNat)
    if c.isDigit ∧ next < significandBound then
      let (total, taken, rest) := collect next rest
      (total, taken + 1, rest)
    else (significand, 0, c :: rest)

/-- The exponent of a number, after `e`. -/
def exponent (text : List Char) : Except Fault (Int × List Char) :=
  let (negative, digits) := match text with
    | '+' :: rest => (false, rest)
    | '-' :: rest => (true, rest)
    | rest => (false, rest)
  match leadingDigits digits, digits with
  | [], [] => .error .endInValue
  | [], _ => .error .invalidNumber
  | leading, _ =>
    let n : Int := readDigits leading
    .ok (if negative then -n else n, afterDigits digits)

/-- A number after its digits and point: an exponent may follow. -/
def finishReal (negative : Bool) (significand : Nat) (shift : Int) : Reader Json
  | [] => (realOf negative significand shift).map (·, [])
  | c :: rest =>
    if c = 'e' ∨ c = 'E' then do
      let (e, rest) ← exponent rest
      (realOf negative significand (shift + e)).map (·, rest)
    else (realOf negative significand shift).map (·, c :: rest)

/-- The digits after a point, of which there has to be one, unless it does not fit any more. -/
def fractionReal (negative : Bool) (significand : Nat) (shift : Int) : Reader Json := fun text =>
  let (total, taken, rest) := collect significand text
  match taken, rest with
  | 0, [] => .error .endInValue
  | 0, c :: _ =>
    if c.isDigit then finishReal negative total shift (afterDigits rest)
    else .error .invalidNumber
  | _, _ => finishReal negative total (shift - taken) (afterDigits rest)

/-- A number whose collected digits end before a point, an exponent or something else. -/
def afterInteger (negative : Bool) (significand : Nat) : Reader Json
  | '.' :: rest => fractionReal negative significand 0 rest
  | text =>
    if text.head? = some 'e' ∨ text.head? = some 'E' then
      finishReal negative significand 0 text
    else if negative then
      if 0 < significand ∧ significand ≤ integerBound then .ok (.integer (-significand), text)
      else .ok (.real ⟨true, (Double.ofNat significand).magnitude⟩, text)
    else .ok (.integer significand, text)

/-- A number with more digits before its point than could be collected: the others only scale. -/
def afterLongInteger (negative : Bool) (significand : Nat) (text : List Char) :
    Except Fault (Json × List Char) :=
  let shift : Int := (leadingDigits text).length
  match afterDigits text with
  | '.' :: rest => fractionReal negative significand shift rest
  | rest => finishReal negative significand shift rest

/-- The digits of a number and all that belongs to it, after the sign. -/
def unsignedNumber (negative : Bool) : Reader Json
  | [] => .error .endInValue
  | '0' :: rest =>
    if (leadingDigits rest) = [] then afterInteger negative 0 rest else .error .invalidNumber
  | c :: rest =>
    if c.isDigit then
      let (significand, _, rest) := collect 0 (c :: rest)
      if (leadingDigits rest) = [] then afterInteger negative significand rest
      else afterLongInteger negative significand rest
    else .error .invalidNumber

/-- A number. -/
def number : Reader Json
  | '-' :: rest => unsignedNumber true rest
  | text => unsignedNumber false text

end Json

end FilterLang
