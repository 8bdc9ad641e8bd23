import FilterLang.Text.Digits
import FilterLang.Double.Shortest

namespace FilterLang

/-!
# Json — documents and their text

* `Json` — a JSON document; the members of an object keep their order.
* `Json.text` — the compact text of a document.
* `Json.sorted` — the document with the members of each object in the order of their names.
* `Json.ofDouble` — a number as JSON writes it: a whole number below `2 ^ 63` has no point.
-/

/-- A JSON document. -/
inductive Json where
  | null
  | bool (b : Bool)
  /-- A number written without point and exponent. -/
  | integer (n : Int)
  | real (d : Double)
  | string (s : String)
  | array (items : List Json)
  | object (members : List (String × Json))
deriving Repr

namespace Json

instance : Inhabited Json := ⟨null⟩

/-- A whole number below this bound is written as an integer: it is `2 ^ 63`. -/
def integerBound : Nat := 0x8000000000000000

/-- The number of a double. -/
def ofDouble (d : Double) : Json :=
  match d.whole? with
  | some n => if n.natAbs < integerBound then integer n else real d
  | none => real d

/-- The object of a list of members, without those that have no value. -/
def ofMembers (members : List (String × Option Json)) : Json :=
  object (members.filterMap fun (name, value) => value.map (name, ·))

/-! ### Text of strings -/

/-- The hexadecimal digit of a number below 16. -/
def hexDigit (n : Nat) : Char := Nat.digitChar n

/-- A character within a string. -/
def escaped (c : Char) : List Char :=
  if c = '"' then ['\\', '"']
  else if c = '\\' then ['\\', '\\']
  else if c = '\x08' then ['\\', 'b']
  else if c = '\t' then ['\\', 't']
  else if c = '\n' then ['\\', 'n']
  else if c = '\x0c' then ['\\', 'f']
  else if c = '\r' then ['\\', 'r']
  else if c.toNat < 0x20 then
    ['\\', 'u', '0', '0', hexDigit (c.toNat / 16), hexDigit (c.toNat % 16)]
  else [c]

/-- A string in quotes. -/
def quoted (s : String) : List Char := '"' :: s.toList.flatMap escaped ++ ['"']

/-- The digits of an integer after its sign. -/
def integerText (n : Int) : List Char :=
  if n < 0 then '-' :: digitText n.natAbs else digitText n.natAbs

/-! ### Text of documents -/

mutual

/-- The text of a document, without blanks. -/
def text : Json → List Char
  | null => ['n', 'u', 'l', 'l']
  | bool b => if b then ['t', 'r', 'u', 'e'] else ['f', 'a', 'l', 's', 'e']
  | integer n => integerText n
  | real d => d.jsonText
  | string s => quoted s
  | array items => '[' :: itemsText items ++ [']']
  | object members => '\x7b' :: membersText members ++ ['\x7d']

/-- The items of an array, with commas between them. -/
def itemsText : List Json → List Char
  | [] => []
  | [item] => item.text
  | item :: next :: rest => item.text ++ ',' :: itemsText (next :: rest)

/-- The members of an object, with commas between them. -/
def membersText : List (String × Json) → List Char
  | [] => []
  | [(name, value)] => quoted name ++ ':' :: value.text
  | (name, value) :: next :: rest =>
    quoted name ++ ':' :: value.text ++ ',' :: membersText (next :: rest)

end

/-- The text of a document as a string. -/
def render (j : Json) : String := String.ofList j.text

mutual

/-- The document with the members of every object in the order of their names. -/
def sorted : Json → Json
  | array items => array (sortedItems items)
  | object members => object ((sortedMembers members).mergeSort fun a b => decide (a.1 ≤ b.1))
  | j => j

/-- The items with all objects sorted. -/
def sortedItems : List Json → List Json
  | [] => []
  | item :: rest => item.sorted :: sortedItems rest

/-- The members with all objects in their values sorted. -/
def sortedMembers : List (String × Json) → List (String × Json)
  | [] => []
  | (name, value) :: rest => (name, value.sorted) :: sortedMembers rest

end

end Json

end FilterLang
