import Mathlib.Data.List.Nodup
import FilterLang.Schema

namespace FilterLang

/-!
# Schema — fields that keep the structural rules

* `Schema.KeepsRules` — the rules for one field, said of its name and its type;
  `Schema.flaw?_eq_none_iff` says that a field without a flaw keeps them.
* `Schema.IsValid.keepsRules` — so do all fields of a valid schema.
* `Schema.KeepsRules.isSome_targetClass_iff` — pointers and relations have a target class, and no
  other field has one.
-/

theorem FieldKind.isRelational_iff {kind : FieldKind} :
    kind.isRelational = true ↔ kind = .pointer ∨ kind = .relation := by
  cases kind <;> simp [isRelational]

namespace Schema

/-- A field keeps the structural rules: its name can be read as one token of query text, and it has
a target class if it refers to objects, and only then. -/
structure KeepsRules (name : String) (type : FieldType) : Prop where
  named : name ≠ ""
  visible : name.toList.any isBlank = false
  target : if type.kind.isRelational then ∃ target, type.targetClass = some target ∧ target ≠ ""
    else type.targetClass = none

/-- A field has no flaw if it keeps the rules. -/
theorem flaw?_eq_none_iff {name : String} {type : FieldType} :
    flaw? name type = none ↔ KeepsRules name type := by
  obtain ⟨kind, targetClass⟩ := type
  constructor
  · intro h
    unfold flaw? at h
    split at h
    · cases h
    next named =>
    split at h
    · cases h
    next visible =>
    refine ⟨named, Bool.eq_false_iff.2 visible, ?_⟩
    -- the last rule is about a class and a kind: a table of four cases
    cases targetClass <;> cases relational : kind.isRelational <;> simp_all
  · rintro ⟨named, visible, target⟩
    unfold flaw?
    rw [if_neg named, visible, if_neg Bool.false_ne_true]
    cases targetClass <;> cases relational : kind.isRelational <;> simp_all

/-- A schema is valid if all of its fields keep the rules. -/
theorem isValid_iff {schema : Schema} :
    schema.IsValid ↔ ∀ field ∈ schema.fields, KeepsRules field.1 field.2 := by
  simp only [IsValid, validate, List.findSome?_eq_none_iff, flaw?_eq_none_iff]

/-- A field that is found is one of the fields. -/
theorem mem_fields_of_get? {schema : Schema} {name : String} {type : FieldType}
    (h : schema.get? name = some type) : (name, type) ∈ schema.fields := by
  obtain ⟨⟨found, type'⟩, hf, rfl⟩ := Option.map_eq_some_iff.1 h
  have same := List.find?_some hf
  obtain rfl : found = name := of_decide_eq_true same
  exact List.mem_of_find?_eq_some hf

/-- A field is found, as no other field has its name. -/
theorem get?_of_mem_fields {schema : Schema} {name : String} {type : FieldType}
    (h : (name, type) ∈ schema.fields) : schema.get? name = some type := by
  cases found : schema.get? name with
  | none => exact absurd (List.mem_map_of_mem h) (get?_eq_none_iff.1 found)
  | some type' =>
    have same := List.inj_on_of_nodup_map schema.nodup h (mem_fields_of_get? found) rfl
    rw [(Prod.mk.inj same).2]

/-- Each field of a valid schema keeps the rules. -/
theorem IsValid.keepsRules {schema : Schema} (valid : schema.IsValid) {name : String}
    {type : FieldType} (h : schema.get? name = some type) : KeepsRules name type :=
  isValid_iff.1 valid _ (mem_fields_of_get? h)

/-- No blank is part of the name of a field that keeps the rules. -/
theorem KeepsRules.not_mem {name : String} {type : FieldType} (h : KeepsRules name type) {c : Char}
    (blank : isBlank c = true) : c ∉ name.toList := fun hc =>
  List.any_eq_false.1 h.visible c hc blank

/-- It has a target class if it refers to objects, and only then. -/
theorem KeepsRules.isSome_targetClass_iff {name : String} {type : FieldType}
    (h : KeepsRules name type) :
    type.targetClass.isSome = true ↔ type.kind = .pointer ∨ type.kind = .relation := by
  rw [← FieldKind.isRelational_iff]
  have rule := h.target
  split at rule
  next relational =>
    obtain ⟨target, named, -⟩ := rule
    rw [named]
    exact iff_of_true rfl relational
  next other =>
    rw [rule]
    exact iff_of_false Bool.false_ne_true other

/-- Its target class has a name. -/
theorem KeepsRules.targetClass_ne {name target : String} {type : FieldType}
    (h : KeepsRules name type) (named : type.targetClass = some target) : target ≠ "" := by
  have rule := h.target
  rw [named] at rule
  split at rule
  · obtain ⟨_, same, ne⟩ := rule
    rwa [Option.some.inj same]
  · cases rule

end Schema

end FilterLang
