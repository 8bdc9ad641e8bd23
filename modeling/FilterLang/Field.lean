namespace FilterLang

/-!
# Field — kinds and types of fields

* `FieldKind` — the ten kinds of fields; `FieldKind.all` lists them in their fixed order.
* `FieldType` — a kind, and the class that a reference of that kind points to.
-/

/-- What a field of a class holds. -/
inductive FieldKind where
  | string
  | number
  | boolean
  /-- A point in time. -/
  | date
  /-- A reference to one object of the target class. -/
  | pointer
  /-- References to any number of objects of the target class. -/
  | relation
  | array
  | object
  /-- A latitude and a longitude. -/
  | geoPoint
  /-- A stored file. -/
  | file
deriving DecidableEq, Repr

namespace FieldKind

/-- Every kind. -/
def all : List FieldKind :=
  [string, number, boolean, date, pointer, relation, array, object, geoPoint, file]

/-- The name of a kind in documents and messages. -/
def name : FieldKind → String
  | string => "String"
  | number => "Number"
  | boolean => "Boolean"
  | date => "Date"
  | pointer => "Pointer"
  | relation => "Relation"
  | array => "Array"
  | object => "Object"
  | geoPoint => "GeoPoint"
  | file => "File"

/-- The kind that has a name. -/
def ofName? (text : String) : Option FieldKind := all.find? (·.name = text)

/-- Whether a field of the kind refers to objects of another class. -/
def isRelational : FieldKind → Bool
  | pointer | relation => true
  | _ => false

end FieldKind

/-- The declared type of a field. -/
structure FieldType where
  kind : FieldKind
  /-- The class that a pointer or relation refers to. -/
  targetClass : Option String
deriving DecidableEq, Repr

/-- The type of a kind, without a target class. -/
def FieldType.of (kind : FieldKind) : FieldType := ⟨kind, none⟩

end FilterLang
