import FilterLang.Double.Shortest
import FilterLang.Instant.Literal
import FilterLang.Field
import FilterLang.Value

namespace FilterLang

/-!
# Literal — values in query text

A literal is the text of a value at the end of a row. What it means depends on the field's type.

* `Literal.decode` — the value of a literal, or why the type has no such value.
* `Value.literal` — the literal of a value.
-/

namespace Literal

/-- Why a literal has no value. -/
inductive Fault where
  /-- It does not write a value of the field's kind. -/
  | unsupported (literal : String) (expected : FieldKind)
  /-- The field refers to objects, but its type does not say of which class. -/
  | noTargetClass (kind : FieldKind)
deriving DecidableEq, Repr

/-- What is said of a fault. -/
def Fault.message : Fault → String
  | unsupported literal expected => s!"'{literal}' is not a valid {expected.name} literal"
  | noTargetClass kind => s!"{kind.name} field has no targetClass"

/-- The value of a literal that holds no line break and is neither `true` nor `false`. -/
def decodeKind (type : FieldType) (literal : String) : Except Fault Value :=
  match type.kind with
  | .date =>
    match Instant.ofLiteral? literal.toList with
    | some i => .ok (.date i)
    | none => .error (.unsupported literal type.kind)
  | .pointer | .relation =>
    match type.targetClass with
    | none => .error (.noTargetClass type.kind)
    | some target =>
      if literal = "" ∨ literal.toList.any isBlank then .error (.unsupported literal type.kind)
      else .ok (.pointer target literal)
  | .number =>
    match Double.ofText? literal.toList with
    | some n => .ok (.number n)
    | none => .error (.unsupported literal type.kind)
  | .boolean => .error (.unsupported literal type.kind)
  | .string | .array | .object | .geoPoint | .file => .ok (.text literal)

/-- The value of a literal for a type. A literal never holds a line break, as a row is one line;
and `true` and `false` are truth values for every type. -/
def decode (type : FieldType) (literal : String) : Except Fault Value :=
  if '\n' ∈ literal.toList ∨ '\r' ∈ literal.toList then .error (.unsupported literal type.kind)
  else if literal = "true" then .ok (.bool true)
  else if literal = "false" then .ok (.bool false)
  else decodeKind type literal

end Literal

/-- The text of a truth value. -/
def boolText (b : Bool) : String := if b then "true" else "false"

/-- The literal of a value. -/
def Value.literal : Value → String
  | bool b => boolText b
  | number n => String.ofList n.text
  | text s => s
  | date i => String.ofList i.iso
  | pointer _ objectId => objectId

end FilterLang
