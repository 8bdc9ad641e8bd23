import FilterLang.Text.Hidden
import FilterLang.Json.Basic

namespace FilterLang

/-!
# Json — what can be wrong with a document

* `Json.Fault` — the faults of a document's grammar and of its shape.
* `Json.Found` — what stands where something else is expected.
* `Json.Fault.message` — the text of a fault.
-/

namespace Json

/-- What stands where something else is expected. -/
inductive Found where
  | null
  | bool (b : Bool)
  | integer (n : Int)
  | real (d : Double)
  | string (s : String)
  | sequence
  | map
deriving Repr

/-- A character of a string in a message: quotes are escaped, and a character without a mark of its
own is named by its code. -/
def shown (c : Char) : List Char :=
  if c = '"' then ['\\', '"']
  else if c = '\\' then ['\\', '\\']
  else if c = '\t' then ['\\', 't']
  else if c = '\n' then ['\\', 'n']
  else if c = '\r' then ['\\', 'r']
  else if c = '\x00' then ['\\', '0']
  else if isHidden c then
    ['\\', 'u', '\x7b'] ++ Nat.toDigits 16 c.toNat ++ ['\x7d']
  else [c]

/-- What is said of a thing that was found. -/
def Found.text : Found → String
  | null => "null"
  | bool b => s!"boolean `{b}`"
  | integer n => s!"integer `{String.ofList (integerText n)}`"
  | real d => s!"floating point `{String.ofList d.jsonText}`"
  | string s => "string \"" ++ String.ofList (s.toList.flatMap shown) ++ "\""
  | sequence => "sequence"
  | map => "map"

/-- Why a text is not the expected document. The first fault from the left counts. -/
inductive Fault where
  | endInValue
  | endInList
  | endInObject
  | endInString
  | expectedValue
  /-- A letter does not continue `null`, `true` or `false`. -/
  | expectedWord
  | expectedColon
  | expectedCommaOrBracket
  | expectedCommaOrBrace
  | keyNotString
  | trailingComma
  | trailingCharacters
  | invalidNumber
  | numberOutOfRange
  | invalidEscape
  /-- A high surrogate without an escape after it. -/
  | unpairedHigh
  /-- A low surrogate first, or a high one followed by something else. -/
  | unpairedLow
  | controlCharacter
  /-- Too many arrays and objects inside each other. -/
  | tooDeep
  | invalidType (found : Found) (expected : String)
  | missingField (name : String)
  | duplicateField (name : String)
  | unknownVariant (name : String) (expected : List String)
  | invalidLength (length : Nat) (expected : String)
  /-- The document has the right shape, but breaks a rule of what it describes. -/
  | refused (reason : String)
deriving Repr

/-- What is said of a fault. -/
def Fault.message : Fault → String
  | endInValue => "EOF while parsing a value"
  | endInList => "EOF while parsing a list"
  | endInObject => "EOF while parsing an object"
  | endInString => "EOF while parsing a string"
  | expectedValue => "expected value"
  | expectedWord => "expected ident"
  | expectedColon => "expected `:`"
  | expectedCommaOrBracket => "expected `,` or `]`"
  | expectedCommaOrBrace => "expected `,` or `\x7d`"
  | keyNotString => "key must be a string"
  | trailingComma => "trailing comma"
  | trailingCharacters => "trailing characters"
  | invalidNumber => "invalid number"
  | numberOutOfRange => "number out of range"
  | invalidEscape => "invalid escape"
  | unpairedHigh => "unexpected end of hex escape"
  | unpairedLow => "lone leading surrogate in hex escape"
  | controlCharacter =>
    "control character (\\u0000-\\u001F) found while parsing a string"
  | tooDeep => "recursion limit exceeded"
  | invalidType found expected => s!"invalid type: {found.text}, expected {expected}"
  | missingField name => s!"missing field `{name}`"
  | duplicateField name => s!"duplicate field `{name}`"
  | unknownVariant name expected =>
    let names := ", ".intercalate (expected.map fun e => "`" ++ e ++ "`")
    s!"unknown variant `{name}`, expected one of {names}"
  | invalidLength length expected => s!"invalid length {length}, expected {expected}"
  | refused reason => reason

/-- A reader takes the start of a text and leaves the rest. -/
abbrev Reader := StateT (List Char) (Except Fault)

end Json

end FilterLang
