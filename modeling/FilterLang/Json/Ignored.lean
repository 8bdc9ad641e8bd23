import FilterLang.Json.Token

namespace FilterLang

/-!
# Json — values that do not matter

The value of a member that nobody asked for is only checked for its grammar: numbers may be of any
size, surrogates need no partners, and arrays and objects may be nested to any depth.

* `Json.ignoredValue` — takes such a value. The arrays and objects that are open are kept on a
  stack.
-/

namespace Json

/-! ### Words, strings and numbers -/

/-- A string after its opening quote. Every step takes a character, so the length of the text is
fuel enough. -/
def ignoredString : (fuel : Nat) → Reader Unit
  | 0, _ => .error .endInString
  | _, [] => .error .endInString
  | fuel + 1, c :: rest =>
    if c = '"' then .ok ((), rest)
    else if c = '\\' then
      match rest with
      | [] => .error .endInString
      | letter :: rest =>
        if (letterEscape? letter).isSome then ignoredString fuel rest
        else if letter = 'u' then
          match hexCode rest with
          | .ok (_, rest) => ignoredString fuel rest
          | .error fault => .error fault
        else .error .invalidEscape
    else if c.toNat < 0x20 then .error .controlCharacter
    else ignoredString fuel rest

/-- One digit or more. -/
def ignoredDigits : Reader Unit := fun text =>
  if leadingDigits text = [] then .error .invalidNumber else .ok ((), afterDigits text)

/-- An exponent, if there is one. -/
def ignoredExponent : Reader Unit
  | [] => .ok ((), [])
  | c :: rest =>
    if c = 'e' ∨ c = 'E' then
      match rest with
      | '+' :: rest => ignoredDigits rest
      | '-' :: rest => ignoredDigits rest
      | rest => ignoredDigits rest
    else .ok ((), c :: rest)

/-- What may follow the digits before a point. -/
def ignoredFraction : Reader Unit
  | '.' :: rest => do
    let ((), rest) ← ignoredDigits rest
    ignoredExponent rest
  | text => ignoredExponent text

/-- A number after its sign. -/
def ignoredNumber : Reader Unit
  | '0' :: rest => if leadingDigits rest = [] then ignoredFraction rest else .error .invalidNumber
  | text => do
    let ((), rest) ← ignoredDigits text
    ignoredFraction rest

/-! ### Arrays and objects -/

/-- An array or object that is open. -/
inductive Nest where
  | list
  | object
deriving DecidableEq

namespace Nest

/-- The character that ends it. -/
def close : Nest → Char
  | list => ']'
  | object => '\x7d'

/-- The fault of a text that ends in it. -/
def unfinished : Nest → Fault
  | list => .endInList
  | object => .endInObject

/-- The fault of a text in which neither a comma nor its end follows a value. -/
def expectedComma : Nest → Fault
  | list => .expectedCommaOrBracket
  | object => .expectedCommaOrBrace

/-- Takes what stands before the next value in it: a name and a colon in an object. -/
def beforeValue : Nest → Reader Unit
  | list => pure ()
  | object => do
    match ← next? with
    | none => throw .endInObject
    | some c =>
      if c ≠ '"' then throw .keyNotString
      skip
      ignoredString ((← get).length + 1)
      match ← next? with
      | none => throw .endInObject
      | some c => if c = ':' then skip else throw .expectedColon

end Nest

/-- Goes on to the next value: ends what ends here, and takes a comma if one may stand here. The
result is what is open around that value; nothing, if the whole value has ended. -/
def toNextValue : (comma : Bool) → List Nest → Reader (List Nest)
  | _, [], text => .ok ([], text)
  | comma, nest :: outer, text => do
    let (c?, text) ← next? text
    match c? with
    | none => throw nest.unfinished
    | some c =>
      if c = ',' ∧ comma then
        let ((), text) ← nest.beforeValue (text.drop 1)
        pure (nest :: outer, text)
      else if c = nest.close then toNextValue true outer (text.drop 1)
      else if comma then throw nest.expectedComma
      else
        let ((), text) ← nest.beforeValue text
        pure (nest :: outer, text)

/-- Takes the start of a value: all of a word, string or number, or the bracket that opens an
array or object. -/
def startOfValue (open' : List Nest) : Reader (List Nest) := do
  match ← next? with
  | none => throw .endInValue
  | some c =>
    if c = '[' then skip; toNextValue false (.list :: open')
    else if c = '\x7b' then skip; toNextValue false (.object :: open')
    else do
      if c = 'n' then skip; word ['u', 'l', 'l']
      else if c = 't' then skip; word ['r', 'u', 'e']
      else if c = 'f' then skip; word ['a', 'l', 's', 'e']
      else if c = '"' then skip; ignoredString ((← get).length + 1)
      else if c = '-' then skip; ignoredNumber
      else if c.isDigit then ignoredNumber
      else throw .expectedValue
      toNextValue true open'

/-- Takes values until nothing is open. Every round takes a character. -/
def ignoredRounds : (fuel : Nat) → List Nest → Reader Unit
  | 0, _ => throw .endInValue
  | fuel + 1, open' => do
    match ← startOfValue open' with
    | [] => pure ()
    | open' => ignoredRounds fuel open'

/-- Takes a value that does not matter. -/
def ignoredValue : Reader Unit := do
  ignoredRounds ((← get).length + 1) []

end Json

end FilterLang
