import FilterLang.Service
import FilterLang.Proofs.Query.RoundTrip
import FilterLang.Proofs.Schema.Rules

namespace FilterLang

/-!
# Schema — what a loaded schema guarantees

A literal of a pointer or a relation needs the target class of its field, and a type need not have
one. But a schema is only loaded if it is valid, and then such a type has one. So the fault that says
that it is missing is never seen.

* `Schema.isValid_of_load` — a loaded schema is valid.
* `Schema.IsValid.fault_ne` — with a valid schema, no row is rejected for a missing target class.
* `Schema.targetClass_of_compile` — a reference among the filters of a text is to the declared class.
* `Schema.of_load` — what holds of the fields of a loaded schema, and of each text that is compiled
  with it.
-/

namespace Schema

variable {schema : Schema}

/-- A schema is only loaded if it is valid. -/
theorem isValid_of_load {source document : String} (h : load source document = .ok schema) :
    schema.IsValid := by
  unfold load parse at h
  split at h
  · cases h
  split at h
  · cases h
  next valid => cases h; exact valid

/-- With a valid schema, no row is rejected for a target class that is missing. -/
theorem IsValid.fault_ne (valid : schema.IsValid) {inPlace : List Filter} {blacklist : Blacklist}
    {text : String} {diagnostics : List Diagnostic}
    (failed : Scope.compile ⟨schema, inPlace, blacklist⟩ text = .error diagnostics) {d : Diagnostic}
    (hd : d ∈ diagnostics) (field : String) (kind : FieldKind) :
    d.fault ≠ .invalidValue field (.noTargetClass kind) := by
  intro missed
  obtain ⟨rfl, -⟩ := Scope.compile_eq_error_iff.1 failed
  have judged := Scope.judge_of_mem_rejections hd
  rw [missed] at judged
  obtain ⟨type, literal, declared, decoded⟩ := Scope.decode_of_judge judged
  -- the fault needs a relational field without a class, which the rules of the schema exclude
  obtain ⟨relational, none⟩ := Literal.of_decode_eq_noTargetClass decoded
  have some := (valid.keepsRules declared).isSome_targetClass_iff.2
    (FieldKind.isRelational_iff.1 relational)
  rw [none] at some
  cases some

/-- With any schema, a reference in the filters of a text is to the target class that its field
declares. -/
theorem targetClass_of_compile {inPlace : List Filter} {blacklist : Blacklist} {text : String}
    {filters : List Filter}
    (compiled : Scope.compile ⟨schema, inPlace, blacklist⟩ text = .ok filters) {f : Filter}
    (hf : f ∈ filters) {target objectId : String} (pointer : f.compareTo = .pointer target objectId) :
    ∃ type, schema.get? f.field = some type ∧ type.targetClass = some target := by
  obtain ⟨type, row⟩ := (Scope.hasQuery_of_compile_eq_ok compiled).1.rows f hf
  have canonical := row.canonical
  rw [pointer] at canonical
  exact ⟨type, row.declared, canonical.2.1⟩

/-- **Loaded schemas.** The fields of a loaded schema have names of their own that are not empty and
hold no blank. A field has a target class if it is a pointer or a relation, and only then; and this
class has a name. So whatever the text, the filters in place and the blacklist are, no diagnostic says
that a target class is missing, and each reference among the filters is to the class that its field
declares. -/
theorem of_load {source document : String} (h : load source document = .ok schema) :
    schema.names.Nodup ∧
    (∀ field ∈ schema.fields, field.1 ≠ "" ∧ (∀ c ∈ field.1.toList, isBlank c = false) ∧
      (field.2.targetClass.isSome = true ↔
        field.2.kind = .pointer ∨ field.2.kind = .relation) ∧
      ∀ target, field.2.targetClass = some target → target ≠ "") ∧
    ∀ inPlace blacklist text,
      (∀ diagnostics, Scope.compile ⟨schema, inPlace, blacklist⟩ text = .error diagnostics →
        ∀ d ∈ diagnostics, ∀ field kind, d.fault ≠ .invalidValue field (.noTargetClass kind)) ∧
      ∀ filters, Scope.compile ⟨schema, inPlace, blacklist⟩ text = .ok filters →
        ∀ f ∈ filters, ∀ target objectId, f.compareTo = .pointer target objectId →
          target ≠ "" ∧ ∃ type, schema.get? f.field = some type ∧ type.targetClass = some target := by
  have valid := isValid_of_load h
  refine ⟨schema.nodup, fun field hfield => ?_, fun inPlace blacklist text =>
    ⟨fun diagnostics failed d hd => valid.fault_ne failed hd, ?_⟩⟩
  · have rules := isValid_iff.1 valid field hfield
    refine ⟨rules.named, fun c hc => ?_, rules.isSome_targetClass_iff, fun target =>
      rules.targetClass_ne⟩
    exact Bool.eq_false_iff.2 fun blank => rules.not_mem blank hc
  · intro filters compiled f hf target objectId pointer
    obtain ⟨type, declared, named⟩ := targetClass_of_compile compiled hf pointer
    exact ⟨(valid.keepsRules declared).targetClass_ne named, type, declared, named⟩

/-- A document with members in another order, and with a type that is written as an array. -/
theorem of_load_array :
    let document := "\x7b\"fields\":\x7b" ++
      "\"owner\":\x7b\"targetClass\":\"_User\",\"type\":\"Pointer\"\x7d," ++
      " \"size\": [\"Number\"]\x7d\x7d"
    let schema : Schema := ⟨[("owner", ⟨.pointer, some "_User"⟩), ("size", .of .number)], by decide⟩
    let filters : List Filter := [⟨"owner", .notEqualTo, .pointer "_User" "x1"⟩]
    let diagnostics : List Diagnostic :=
      [⟨0, 1, "owner equalTo x 1", .invalidValue "owner" (.unsupported "x 1" .pointer)⟩]
    load "fields.json" document = .ok schema ∧
      schema.names.Nodup ∧
      Scope.compile ⟨schema, [], .empty⟩ "owner notEqualTo x1" = .ok filters ∧
      (∀ f ∈ filters, ∀ target objectId, f.compareTo = .pointer target objectId →
        target ≠ "" ∧ ∃ type, schema.get? f.field = some type ∧ type.targetClass = some target) ∧
      Scope.compile ⟨schema, [], .empty⟩ "owner equalTo x 1" = .error diagnostics ∧
      ∀ d ∈ diagnostics, ∀ field kind, d.fault ≠ .invalidValue field (.noTargetClass kind) := by
  intro document schema filters diagnostics
  have loaded : load "fields.json" document = .ok schema :=
    toOption_eq_some_iff.1 (by decide +kernel)
  have compiled : Scope.compile ⟨schema, [], .empty⟩ "owner notEqualTo x1" = .ok filters := by
    decide +kernel
  have failed : Scope.compile ⟨schema, [], .empty⟩ "owner equalTo x 1" = .error diagnostics := by
    decide +kernel
  -- both texts are compiled in the scope of the loaded schema
  obtain ⟨distinct, -, all⟩ := of_load loaded
  exact ⟨loaded, distinct, compiled, (all [] .empty _).2 filters compiled, failed,
    (all [] .empty _).1 diagnostics failed⟩

-- A schema that is made otherwise need not be valid, and then the target class can be missing.
example :
    Scope.compile ⟨empty.withField "owner" (.of .pointer), [], .empty⟩ "owner equalTo x1" =
      .error [⟨0, 1, "owner equalTo x1", .invalidValue "owner" (.noTargetClass .pointer)⟩] :=
  rfl

end Schema

end FilterLang
