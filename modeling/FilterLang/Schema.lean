import FilterLang.Text.Blank
import FilterLang.Field

namespace FilterLang

/-!
# Schema — the fields of a class

* `Schema` — fields in order, no two of one name.
* `Schema.withField` — declares a field; a field of that name keeps its place and gets the new
  type, and a new field comes last. `get?_withField` says what can be looked up afterwards.
* `Schema.validate` — the structural rules, and the first field that breaks one.
-/

/-- The declared fields of a class, in order. -/
structure Schema where
  /-- Names and types. -/
  fields : List (String × FieldType)
  nodup : (fields.map Prod.fst).Nodup
deriving DecidableEq

namespace Schema

/-- No fields. -/
def empty : Schema := ⟨[], List.nodup_nil⟩

instance : Inhabited Schema := ⟨empty⟩

/-- The names of the fields. -/
def names (schema : Schema) : List String := schema.fields.map Prod.fst

/-- The type of a field. -/
def get? (schema : Schema) (name : String) : Option FieldType :=
  (schema.fields.find? (·.1 = name)).map Prod.snd

/-- Whether a field is declared. -/
def contains (schema : Schema) (name : String) : Bool := (schema.get? name).isSome

/-- The fields with the type of one of them replaced. -/
def replaced (fields : List (String × FieldType)) (name : String) (type : FieldType) :
    List (String × FieldType) :=
  fields.map fun field => if field.1 = name then (name, type) else field

theorem map_fst_replaced (fields : List (String × FieldType)) (name : String) (type : FieldType) :
    (replaced fields name type).map Prod.fst = fields.map Prod.fst := by
  simp only [replaced, List.map_map]
  apply List.map_congr_left
  intro field _
  by_cases h : field.1 = name <;> simp [h]

/-- Declares a field of a name that no field has yet. -/
def append (schema : Schema) (name : String) (type : FieldType) (h : name ∉ schema.names) :
    Schema where
  fields := schema.fields ++ [(name, type)]
  nodup := by
    rw [List.map_append, List.nodup_append]
    refine ⟨schema.nodup, by simp, fun a ha b hb => ?_⟩
    simp only [List.map_cons, List.map_nil, List.mem_singleton] at hb
    rintro rfl
    exact h (hb ▸ ha)

/-- Declares a field, or gives a declared one another type. -/
def withField (schema : Schema) (name : String) (type : FieldType) : Schema :=
  if h : name ∈ schema.names then
    ⟨replaced schema.fields name type, by rw [map_fst_replaced]; exact schema.nodup⟩
  else schema.append name type h

/-! ### Look-up -/

/-- A field is declared if its name is one of the names. -/
theorem contains_iff {schema : Schema} {name : String} :
    schema.contains name = true ↔ name ∈ schema.names := by
  simp [contains, get?, names]

/-- A field that is not declared has no type. -/
theorem get?_eq_none_iff {schema : Schema} {name : String} :
    schema.get? name = none ↔ name ∉ schema.names := by
  rw [← contains_iff, contains]; cases schema.get? name <;> simp

/-- Another type for a name is found under this name, and all others keep theirs. -/
theorem find?_replaced (fields : List (String × FieldType)) (name other : String)
    (type : FieldType) (h : name ∈ fields.map Prod.fst) :
    ((replaced fields name type).find? (·.1 = other)).map Prod.snd =
      if other = name then some type else (fields.find? (·.1 = other)).map Prod.snd := by
  induction fields with
  | nil => simp at h
  | cons field fields ih =>
    simp only [replaced, List.map_cons, List.mem_cons] at h ih ⊢
    -- whether this field is replaced, and whether it is the one that is looked up
    by_cases hf : field.1 = name <;> by_cases ho : other = name
    · simp [hf, ho]
    · have : ¬ name = other := fun e => ho e.symm
      by_cases hm : name ∈ fields.map Prod.fst
      · simpa [hf, ho, this] using ih hm
      · have : fields.map (fun f => if f.1 = name then (name, type) else f) = fields := by
          refine (List.map_congr_left fun f hmem => ?_).trans (List.map_id fields)
          have : f.1 ≠ name := fun e => hm (e ▸ List.mem_map_of_mem hmem)
          simp [this]
        simp [hf, ho, this, Ne.symm ho]
    · subst ho
      simpa [hf] using ih (h.resolve_left fun e => hf e.symm)
    · by_cases hfo : field.1 = other
      · simp [hfo, ho]
      · simpa [hf, hfo, ho] using ih (h.resolve_left fun e => hf e.symm)

/-- A declared field has the type of its last declaration, and no other field changes. -/
theorem get?_withField (schema : Schema) (name other : String) (type : FieldType) :
    (schema.withField name type).get? other =
      if other = name then some type else schema.get? other := by
  unfold withField
  split
  · next h => exact find?_replaced schema.fields name other type h
  · next h =>
    rw [← get?_eq_none_iff] at h
    by_cases ho : other = name
    · subst ho
      simp only [get?, Option.map_eq_none_iff] at h
      simp [append, get?, h]
    · simp only [append, get?, List.find?_append, ho, if_false]
      cases schema.fields.find? (·.1 = other) <;> simp [Ne.symm ho]

/-- The names after a declaration: a new one comes last, and a known one stays where it is. -/
theorem names_withField (schema : Schema) (name : String) (type : FieldType) :
    (schema.withField name type).names =
      if name ∈ schema.names then schema.names else schema.names ++ [name] := by
  unfold withField
  split
  · exact map_fst_replaced schema.fields name type
  · simp [append, names]

/-! ### Structural rules -/

/-- A rule that a field of a schema breaks. -/
inductive Flaw where
  | emptyName
  | blankInName (name : String)
  | noTargetClass (kind : FieldKind) (name : String)
  | emptyTargetClass (name : String)
  | strayTargetClass (kind : FieldKind) (name : String)
deriving DecidableEq, Repr

/-- What is said of a flaw. -/
def Flaw.message : Flaw → String
  | emptyName => "Field names must not be empty"
  | blankInName name => s!"Field name '{name}' contains whitespace"
  | noTargetClass kind name => s!"{kind.name} field '{name}' must declare a targetClass"
  | emptyTargetClass name => s!"Field '{name}' has an empty targetClass"
  | strayTargetClass kind name => s!"{kind.name} field '{name}' cannot declare a targetClass"

/-- The first rule that a field breaks: a name is not empty and holds no blank, for query text
separates tokens by spaces; a reference names its target class, and no other field names one. -/
def flaw? (name : String) (type : FieldType) : Option Flaw :=
  if name = "" then some .emptyName
  else if name.toList.any isBlank then some (.blankInName name)
  else match type.targetClass, type.kind.isRelational with
  | none, true => some (.noTargetClass type.kind name)
  | some target, true => if target = "" then some (.emptyTargetClass name) else none
  | some _, false => some (.strayTargetClass type.kind name)
  | none, false => none

/-- The flaw of the first field that has one. -/
def validate (schema : Schema) : Option Flaw :=
  schema.fields.findSome? fun field => flaw? field.1 field.2

/-- Whether every field keeps the structural rules. -/
def IsValid (schema : Schema) : Prop := schema.validate = none

instance (schema : Schema) : Decidable schema.IsValid := inferInstanceAs (Decidable (_ = _))

end Schema

end FilterLang
