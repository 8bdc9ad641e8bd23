import FilterLang.Field

namespace FilterLang

/-!
# Constraint — comparison operators

* `Constraint` — the operators of the language; `Constraint.all` lists them in their fixed order.
* `Constraint.spelling`, `Constraint.ofSpelling?` — how they are written; `ofSpelling?_eq_some_iff`
  says that each has one spelling.
* `Constraint.forKind` — the operators that apply to a kind of field, the most likely first.
* `Blacklist` — operators that are not to be used, whatever the field.
-/

/-- A comparison operator. -/
inductive Constraint where
  /-- The field has a value. -/
  | present
  /-- The field has no value. -/
  | absent
  | equalTo
  | notEqualTo
  | lessThan
  | lessThanOrEqualTo
  | greaterThan
  | greaterThanOrEqualTo
  | startsWith
  | endsWith
  /-- The value is part of a string, or a member of an array. -/
  | contains
  | doesNotContain
  /-- The array holds every given value. -/
  | containsAll
  | containedIn
  | notContainedIn
  | before
  | after
  /-- The place is close to another. -/
  | near
  /-- The object is a member of the relation. -/
  | relatedTo
deriving DecidableEq, Repr

namespace Constraint

/-- Every operator. -/
def all : List Constraint :=
  [present, absent, equalTo, notEqualTo, lessThan, lessThanOrEqualTo, greaterThan,
    greaterThanOrEqualTo, startsWith, endsWith, contains, doesNotContain, containsAll,
    containedIn, notContainedIn, before, after, near, relatedTo]

/-- How an operator is written in query text and in documents. -/
def spelling : Constraint → String
  | present => "exists"
  | absent => "doesNotExist"
  | equalTo => "equalTo"
  | notEqualTo => "notEqualTo"
  | lessThan => "lessThan"
  | lessThanOrEqualTo => "lessThanOrEqualTo"
  | greaterThan => "greaterThan"
  | greaterThanOrEqualTo => "greaterThanOrEqualTo"
  | startsWith => "startsWith"
  | endsWith => "endsWith"
  | contains => "contains"
  | doesNotContain => "doesNotContain"
  | containsAll => "containsAll"
  | containedIn => "containedIn"
  | notContainedIn => "notContainedIn"
  | before => "before"
  | after => "after"
  | near => "near"
  | relatedTo => "relatedTo"

/-- The operator with a spelling. Case counts. -/
def ofSpelling? (text : String) : Option Constraint := all.find? (·.spelling = text)

/-- What is said of a spelling that no operator has. -/
def unknownMessage (text : String) : String := s!"Unknown constraint: {text}"

/-- The operators that apply to a kind of field, the most likely first. -/
def forKind : FieldKind → List Constraint
  | .string =>
    [present, absent, equalTo, notEqualTo, startsWith, endsWith, contains, containedIn,
      notContainedIn]
  | .number =>
    [present, absent, equalTo, notEqualTo, lessThan, lessThanOrEqualTo, greaterThan,
      greaterThanOrEqualTo, containedIn, notContainedIn]
  | .boolean => [present, absent, equalTo]
  | .date => [present, absent, before, after]
  | .pointer => [present, absent, equalTo, notEqualTo]
  | .relation => [relatedTo]
  | .array => [present, absent, contains, doesNotContain, containsAll]
  | .object | .file => [present, absent]
  | .geoPoint => [present, absent, near]

/-- Whether an operator applies to a kind of field. -/
def appliesTo (constraint : Constraint) (kind : FieldKind) : Bool := constraint ∈ forKind kind

/-! ### Laws -/

@[simp] theorem ofSpelling?_spelling (constraint : Constraint) :
    ofSpelling? constraint.spelling = some constraint := by
  cases constraint <;> decide

/-- Each operator has one spelling. -/
theorem ofSpelling?_eq_some_iff {text : String} {constraint : Constraint} :
    ofSpelling? text = some constraint ↔ text = constraint.spelling := by
  refine ⟨fun h => ?_, fun h => h ▸ ofSpelling?_spelling constraint⟩
  have := List.find?_some h
  exact (of_decide_eq_true this).symm

/-- No operator is listed twice for a kind. -/
theorem forKind_nodup (kind : FieldKind) : (forKind kind).Nodup := by cases kind <;> decide

end Constraint

/-! ### Blacklists -/

/-- Operators that are not to be used. -/
structure Blacklist where
  /-- The operators, in any order and with any repetitions. -/
  members : List Constraint
deriving Repr

namespace Blacklist

/-- Nothing is banned. -/
def empty : Blacklist := ⟨[]⟩

/-- What is banned unless another blacklist is given. -/
def builtin : Blacklist := ⟨[.containsAll]⟩

/-- Whether an operator is banned. -/
def bans (blacklist : Blacklist) (constraint : Constraint) : Bool := constraint ∈ blacklist.members

/-- The blacklist with one more operator. -/
def ban (blacklist : Blacklist) (constraint : Constraint) : Blacklist :=
  ⟨blacklist.members ++ [constraint]⟩

/-- The banned operators in their fixed order, each once. -/
def kinds (blacklist : Blacklist) : List Constraint := Constraint.all.filter blacklist.bans

/-- Whether nothing is banned. -/
def isEmpty (blacklist : Blacklist) : Bool := blacklist.members.isEmpty

/-- The operators for a kind of field that are not banned. -/
def permitted (blacklist : Blacklist) (kind : FieldKind) : List Constraint :=
  (Constraint.forKind kind).filter (!blacklist.bans ·)

/-- What is left of the operators for a kind. -/
@[simp] theorem mem_permitted {blacklist : Blacklist} {kind : FieldKind}
    {constraint : Constraint} :
    constraint ∈ blacklist.permitted kind ↔
      constraint ∈ Constraint.forKind kind ∧ blacklist.bans constraint = false := by
  simp [permitted]

end Blacklist

end FilterLang
