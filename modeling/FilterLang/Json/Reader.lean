import FilterLang.Json.Ignored

namespace FilterLang

/-!
# Json — readers for documents of a known shape

* `Json.expectString`, `Json.expectBool`, `Json.expectVariant` — values of one type.
* `Json.list` — an array, item by item.
* `Json.members` — an object, member by member.
* `Json.Record` — an object with known members, which can also be written as an array of their
  values; `Record.reader` reads it.
* `Json.value` — any document.
* `Json.whole` — the whole of a text.

A reader of something that can nest takes `depth`: how many more arrays and objects may open
inside each other.
-/

namespace Json

/-- How many arrays and objects a document may have inside each other. -/
def maxDepth : Nat := 127

/-! ### One value -/

/-- Reads what does not have the expected type, which is a fault in itself. -/
def unexpected {α : Type} (expected : String) (c : Char) : Reader α := do
  if c = 'n' then
    skip; word ['u', 'l', 'l']; throw (.invalidType .null expected)
  else if c = 't' then
    skip; word ['r', 'u', 'e']; throw (.invalidType (.bool true) expected)
  else if c = 'f' then
    skip; word ['a', 'l', 's', 'e']; throw (.invalidType (.bool false) expected)
  else if c = '-' ∨ c.isDigit then
    match ← number with
    | .integer n => throw (.invalidType (.integer n) expected)
    | .real d => throw (.invalidType (.real d) expected)
    | _ => throw .invalidNumber
  else if c = '"' then
    skip; throw (.invalidType (.string (← stringBody)) expected)
  else if c = '[' then throw (.invalidType .sequence expected)
  else if c = '\x7b' then throw (.invalidType .map expected)
  else throw .expectedValue

/-- The next character, which has to be there. -/
def start : Reader Char := do
  match ← next? with
  | some c => pure c
  | none => throw .endInValue

/-- A string. -/
def expectString (expected : String) : Reader String := do
  let c ← start
  if c = '"' then skip; stringBody else unexpected expected c

/-- A string, or null. -/
def expectString? (expected : String) : Reader (Option String) := do
  let c ← start
  if c = 'n' then skip; word ['u', 'l', 'l']; pure none
  else some <$> expectString expected

/-- A truth value. -/
def expectBool : Reader Bool := do
  let c ← start
  if c = 't' then skip; word ['r', 'u', 'e']; pure true
  else if c = 'f' then skip; word ['a', 'l', 's', 'e']; pure false
  else unexpected "a boolean" c

/-- Null, where nothing else can stand. -/
def expectNull (expected : String) : Reader Unit := do
  let c ← start
  if c = 'n' then skip; word ['u', 'l', 'l'] else unexpected expected c

/-- The colon between a name and a value. -/
def colon : Reader Unit := do
  match ← next? with
  | none => throw .endInObject
  | some c => if c = ':' then skip else throw .expectedColon

/-- Opens an array or object: what is inside has one level less. -/
def deeper (depth : Nat) : Except Fault Nat :=
  match depth with
  | 0 => .error .tooDeep
  | inside + 1 => .ok inside

/-! ### Arrays -/

/-- Whether one more item follows, and not the end of the array. -/
def anotherItem (first : Bool) : Reader Bool := do
  match ← next? with
  | none => throw .endInList
  | some c =>
    if c = ']' then pure false
    else if first then pure true
    else if c = ',' then
      skip
      match ← next? with
      | none => throw .endInValue
      | some c => if c = ']' then throw .trailingComma else pure true
    else throw .expectedCommaOrBracket

/-- The end of an array. -/
def endList : Reader Unit := do
  match ← next? with
  | none => throw .endInList
  | some c =>
    if c = ']' then skip
    else if c = ',' then
      skip
      match ← next? with
      | some ']' => throw .trailingComma
      | _ => throw .trailingCharacters
    else throw .trailingCharacters

/-- The items up to the end of an array. Every item takes a character, so the length of the text is
fuel enough. -/
def items {α : Type} (item : Reader α) : (fuel : Nat) → (first : Bool) → Reader (List α)
  | 0, _ => throw .endInList
  | fuel + 1, first => do
    if ← anotherItem first then
      let a ← item
      let rest ← items item fuel false
      pure (a :: rest)
    else
      skip
      pure []

/-- An array after its opening bracket. -/
def listBody {α : Type} (item : Reader α) : Reader (List α) := do
  items item ((← get).length + 1) true

/-- An array whose items `item` reads. -/
def list {α : Type} (depth : Nat) (item : Nat → Reader α) : Reader (List α) := do
  let c ← start
  if c = '[' then
    let inside ← deeper depth
    skip
    listBody (item inside)
  else unexpected "a sequence" c

/-! ### Objects -/

/-- The name of the next member, if there is one and not the end of the object. -/
def nextName (first : Bool) : Reader (Option String) := do
  match ← next? with
  | none => throw .endInObject
  | some c =>
    if c = '\x7d' then pure none
    else
      let c ← if first then pure c
        else if c = ',' then do skip; start
        else throw .expectedCommaOrBrace
      if c = '"' then do skip; some <$> stringBody
      else if c = '\x7d' then throw .trailingComma
      else throw .keyNotString

/-- The members up to the end of an object. `member` reads the rest of one after its name and adds
it to what has been read. -/
def members {σ : Type} (member : σ → String → Reader σ) :
    (fuel : Nat) → (first : Bool) → σ → Reader σ
  | 0, _, _ => throw .endInObject
  | fuel + 1, first, done => do
    match ← nextName first with
    | some name => members member fuel false (← member done name)
    | none =>
      skip
      pure done

/-- An object after its opening brace. -/
def objectBody {σ : Type} (member : σ → String → Reader σ) (done : σ) : Reader σ := do
  members member ((← get).length + 1) true done

/-! ### One of several names -/

/-- The meaning of a name. -/
def variant {α : Type} (names : List (String × α)) (name : String) : Except Fault α :=
  match names.lookup name with
  | some a => .ok a
  | none => .error (.unknownVariant name (names.map Prod.fst))

/-- The name of the only member of an object. -/
def onlyName : Reader String := do
  match ← next? with
  | none => throw .endInObject
  | some c =>
    if c = '"' then do skip; stringBody
    else if c = '\x7d' then throw .expectedValue
    else throw .keyNotString

/-- One of several names: a string, or an object with the name as its only member and null as its
value. -/
def expectVariant {α : Type} (depth : Nat) (names : List (String × α)) : Reader α := do
  let c ← start
  if c = '"' then
    skip
    variant names (← stringBody)
  else if c = '\x7b' then
    let _ ← deeper depth
    skip
    let a ← variant names (← onlyName)
    colon
    expectNull "unit"
    match ← next? with
    | none => throw .endInObject
    | some c => if c = '\x7d' then skip; pure a else throw .expectedValue
  else throw .expectedValue

/-! ### Records -/

/-- A member of a record. `σ` holds what has been read of the record. -/
structure Slot (σ : Type) where
  name : String
  /-- Whether an array of values may end before this one. -/
  optional : Bool
  /-- Whether the member has been read. -/
  isFilled : σ → Bool
  /-- Reads its value. -/
  fill : (depth : Nat) → σ → Reader σ

/-- An object with known members. -/
structure Record (σ : Type) where
  name : String
  slots : List (Slot σ)
  /-- Nothing has been read. -/
  start : σ

namespace Record

variable {σ : Type}

/-- What a record is called in a message. -/
def expected (r : Record σ) : String := s!"struct {r.name}"

/-- What a record is called in a message about its length. -/
def expectedLength (r : Record σ) : String :=
  let noun := if r.slots.length = 1 then "element" else "elements"
  s!"{r.expected} with {r.slots.length} {noun}"

/-- Reads a member after its name. Nobody asks for a member without a slot. -/
def member (r : Record σ) (depth : Nat) (done : σ) (name : String) : Reader σ := do
  match r.slots.find? (·.name = name) with
  | some slot =>
    if slot.isFilled done then throw (.duplicateField name)
    colon
    slot.fill depth done
  | none =>
    colon
    ignoredValue
    pure done

/-- Reads the values of slots in their order, `index` being the place of the first of them. -/
def values (r : Record σ) (depth : Nat) : List (Slot σ) → (index : Nat) → σ → Reader σ
  | [], _, done => pure done
  | slot :: slots, index, done => do
    if ← anotherItem (index = 0) then
      values r depth slots (index + 1) (← slot.fill depth done)
    else if slot.optional then values r depth slots (index + 1) done
    else throw (.invalidLength index r.expectedLength)

/-- A record: an object, or an array of the members' values. -/
def reader (r : Record σ) (depth : Nat) : Reader σ := do
  let c ← Json.start
  if c = '[' then
    let inside ← deeper depth
    skip
    let done ← r.values inside r.slots 0 r.start
    endList
    pure done
  else if c = '\x7b' then
    let inside ← deeper depth
    skip
    objectBody (r.member inside) r.start
  else unexpected r.expected c

end Record

/-- The value of a member that a record has to have. -/
def required {α : Type} (name : String) : Option α → Except Fault α
  | some a => .ok a
  | none => .error (.missingField name)

/-! ### Any document -/

/-- A member of an object, after its name. -/
def anyMember (value : Reader Json) (done : List (String × Json)) (name : String) :
    Reader (List (String × Json)) := do
  colon
  pure (done ++ [(name, ← value)])

/-- A document in which `nested` reads what is inside an array or object; without it, none may
open. -/
def valueWith (nested : Option (Reader Json)) : Reader Json := do
  let c ← start
  if c = 'n' then skip; word ['u', 'l', 'l']; pure .null
  else if c = 't' then skip; word ['r', 'u', 'e']; pure (.bool true)
  else if c = 'f' then skip; word ['a', 'l', 's', 'e']; pure (.bool false)
  else if c = '-' ∨ c.isDigit then number
  else if c = '"' then skip; .string <$> stringBody
  else if c = '[' ∨ c = '\x7b' then
    match nested with
    | none => throw .tooDeep
    | some nested =>
      skip
      if c = '[' then .array <$> listBody nested else .object <$> objectBody (anyMember nested) []
  else throw .expectedValue

/-- Any document. -/
def value : (depth : Nat) → Reader Json
  | 0 => valueWith none
  | inside + 1 => valueWith (some (value inside))

/-- The last value of a member of an object. -/
def member? (members : List (String × Json)) (name : String) : Option Json :=
  (members.reverse.find? (·.1 = name)).map Prod.snd

/-- What a reader makes of a whole text: nothing but spaces may follow. -/
def whole {α : Type} (reader : Nat → Reader α) (text : String) : Except Fault α := do
  let (a, rest) ← reader maxDepth text.toList
  if rest.all isSpace then pure a else throw .trailingCharacters

end Json

end FilterLang
