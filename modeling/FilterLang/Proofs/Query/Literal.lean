import FilterLang.Literal
import FilterLang.Double.ReadBack
import FilterLang.Proofs.Instant.ReadBack

namespace FilterLang

/-!
# Literal — canonical values

* `Value.IsCanonical` — a value that a literal of a type can mean.
* `Value.IsRegular` — a value that is no date off the calendar.
* `Literal.of_decode` — what a literal means is canonical and regular.
* `Literal.of_decode_eq_noTargetClass` — only a reference that is declared without a target class
  misses it.
* `Literal.decode_literal` — the literal of a canonical, regular value means this value.
-/

namespace Value

/-- Whether a literal of the type can mean the value. Truth values are for all types, and their
words mean nothing else. A text is one line, and a reference is to the target class. -/
def IsCanonical (type : FieldType) : Value → Prop
  | bool _ => True
  | number _ => type.kind = .number
  | text s =>
    type.kind ∈ [.string, .array, .object, .geoPoint, .file] ∧
      '\n' ∉ s.toList ∧ '\r' ∉ s.toList ∧ s ≠ "true" ∧ s ≠ "false"
  | date _ => type.kind = .date
  | pointer targetClass objectId =>
    type.kind ∈ [.pointer, .relation] ∧ type.targetClass = some targetClass ∧
      objectId ≠ "" ∧ objectId.toList.any isBlank = false ∧ objectId ≠ "true" ∧ objectId ≠ "false"

/-- A date lies on the calendar and is a whole number of milliseconds. -/
def IsRegular : Value → Prop
  | date i => i.IsRegular
  | _ => True

/-- Values that agree are canonical for the same types. -/
theorem IsCanonical.of_agrees {type : FieldType} {v w : Value} (h : v.IsCanonical type)
    (same : v.agrees w = true) : w.IsCanonical type := by
  unfold agrees at same
  split at same
  · exact h
  · exact of_decide_eq_true same ▸ h

end Value

/-! ### Text of numbers -/

/-- A decimal is written with digits and a point, without an exponent. -/
theorem Decimal.mem_plain {d : Decimal} {c : Char} (h : c ∈ d.plain) : c.isDigit = true ∨ c = '.' := by
  unfold plain at h
  split at h
  · split at h
    · rw [List.mem_singleton.1 h]; exact .inl (by decide)
    · rcases List.mem_append.1 h with h | h
      · exact .inl (isDigit_of_mem_digitText h)
      · rw [List.eq_of_mem_replicate h]; exact .inl (by decide)
  · rcases List.mem_append.1 h with h | h
    · exact .inl (isDigit_of_mem_padded (List.mem_of_mem_take h))
    · rcases List.mem_cons.1 h with rfl | h
      · exact .inr rfl
      · exact .inl (isDigit_of_mem_padded (List.mem_of_mem_drop h))

/-- A double is written like that, with a sign before it. -/
theorem Double.mem_text {d : Double} {c : Char} (h : c ∈ d.text) :
    c.isDigit = true ∨ c ∈ ['-', '.'] := by
  rcases List.mem_append.1 h with h | h
  · unfold signText at h
    split at h
    · rw [List.mem_singleton.1 h]; exact .inr (by decide)
    · simp at h
  · rcases Decimal.mem_plain h with digit | rfl
    · exact .inl digit
    · exact .inr (by decide)

namespace Literal

variable {type : FieldType}

/-! ### Literals without line breaks and words -/

/-- No literal with a line break has a value. -/
theorem no_break_of_decode {literal : String} {v : Value} (h : decode type literal = .ok v) :
    '\n' ∉ literal.toList ∧ '\r' ∉ literal.toList := by
  unfold decode at h
  split at h
  · cases h
  · next none => exact not_or.1 none

/-- What is no truth value is read by the kind of the field. -/
theorem decode_eq_decodeKind {literal : String} (feed : '\n' ∉ literal.toList)
    (ret : '\r' ∉ literal.toList) (true' : literal ≠ "true") (false' : literal ≠ "false") :
    decode type literal = decodeKind type literal := by
  rw [decode, if_neg (not_or.2 ⟨feed, ret⟩), if_neg true', if_neg false']

/-- Digits and marks are no line break and no word, if a letter of each word is none of the marks. -/
theorem decode_of_marks {literal marks : List Char}
    (none : marks.all (· ∉ ['\n', '\r', 'r', 'f']) = true)
    (h : ∀ c ∈ literal, c.isDigit = true ∨ c ∈ marks) :
    decode type (String.ofList literal) = decodeKind type (String.ofList literal) := by
  have lacks {c : Char} (digit : c.isDigit = false) (hc : c ∈ ['\n', '\r', 'r', 'f']) :
      c ∉ (String.ofList literal).toList := by
    rw [String.toList_ofList]
    intro mem
    rcases h c mem with digit' | mark
    · rw [digit] at digit'
      cases digit'
    · exact of_decide_eq_true (List.all_eq_true.1 none c mark) hc
  -- `true` has an `r` and `false` an `f`, which the literal cannot have
  refine decode_eq_decodeKind (lacks (by decide) (by decide)) (lacks (by decide) (by decide)) ?_ ?_
  · intro word
    exact @lacks 'r' (by decide) (by decide) (word ▸ by decide)
  · intro word
    exact @lacks 'f' (by decide) (by decide) (word ▸ by decide)

/-! ### What a literal means -/

/-- What a kind reads is canonical for its type, and regular. -/
theorem of_decodeKind {literal : String} {v : Value} (feed : '\n' ∉ literal.toList)
    (ret : '\r' ∉ literal.toList) (true' : literal ≠ "true") (false' : literal ≠ "false")
    (h : decodeKind type literal = .ok v) : v.IsCanonical type ∧ v.IsRegular := by
  obtain ⟨kind, targetClass⟩ := type
  -- dates are regular as they were read, and pointers and texts keep the literal itself
  cases kind with
  | date =>
    simp only [decodeKind] at h
    split at h
    · next i hi => cases h; exact ⟨rfl, Instant.isRegular_of_ofLiteral? hi⟩
    · cases h
  | number =>
    simp only [decodeKind] at h
    split at h
    · cases h; exact ⟨rfl, trivial⟩
    · cases h
  | boolean => cases h
  | pointer | relation =>
    simp only [decodeKind] at h
    split at h
    · cases h
    · next target =>
      split at h
      · cases h
      · next visible =>
        cases h
        obtain ⟨ne, visible⟩ := not_or.1 visible
        exact ⟨⟨by simp, rfl, ne, Bool.eq_false_iff.2 visible, true', false'⟩, trivial⟩
  | string | array | object | geoPoint | file =>
    cases h
    exact ⟨⟨by simp, feed, ret, true', false'⟩, trivial⟩

/-- What a literal means is canonical and regular. -/
theorem of_decode {literal : String} {v : Value} (h : decode type literal = .ok v) :
    v.IsCanonical type ∧ v.IsRegular := by
  obtain ⟨feed, ret⟩ := no_break_of_decode h
  rw [decode, if_neg (not_or.2 ⟨feed, ret⟩)] at h
  split at h
  · cases h; exact ⟨trivial, trivial⟩
  · next true' =>
    split at h
    · cases h; exact ⟨trivial, trivial⟩
    · next false' => exact of_decodeKind feed ret true' false' h

/-- A target class is only missed where a reference is declared without it. -/
theorem of_decode_eq_noTargetClass {literal : String} {kind : FieldKind}
    (h : decode type literal = .error (.noTargetClass kind)) :
    type.kind.isRelational = true ∧ type.targetClass = none := by
  unfold decode at h
  split at h
  · cases h
  split at h
  · cases h
  split at h
  · cases h
  -- past the three common checks, only a relational kind looks for its class
  obtain ⟨type, targetClass⟩ := type
  cases type with
  | pointer | relation =>
    cases targetClass with
    | none => exact ⟨rfl, rfl⟩
    | some target => simp only [decodeKind] at h; split at h <;> cases h
  | date | number => simp only [decodeKind] at h; split at h <;> cases h
  | _ => cases h

/-! ### The literal of a value -/

/-- The literal of a canonical, regular value means this value. -/
theorem decode_literal {v : Value} (canonical : v.IsCanonical type) (regular : v.IsRegular) :
    decode type v.literal = .ok v := by
  obtain ⟨kind, targetClass⟩ := type
  -- numbers and dates are written in their own alphabets; texts stand as they are
  cases v with
  | bool b => cases b <;> simp [decode, Value.literal, boolText]
  | number n =>
    obtain rfl : kind = .number := canonical
    rw [Value.literal, decode_of_marks (by decide) fun c hc => Double.mem_text hc]
    simp [decodeKind, Double.ofText?_text]
  | date i =>
    obtain rfl : kind = .date := canonical
    rw [Value.literal, decode_of_marks (by decide) fun c hc => Instant.visible_of_mem_iso hc]
    simp [decodeKind, Instant.ofLiteral?_iso regular]
  | text s =>
    obtain ⟨kinds, feed, ret, true', false'⟩ := canonical
    rw [Value.literal, decode_eq_decodeKind feed ret true' false']
    simp only [List.mem_cons, List.not_mem_nil, or_false] at kinds
    rcases kinds with rfl | rfl | rfl | rfl | rfl <;> rfl
  | pointer target objectId =>
    obtain ⟨kinds, same, ne, visible, true', false'⟩ := canonical
    obtain rfl : targetClass = some target := same
    have lacks {c : Char} (blank : isBlank c = true) : c ∉ objectId.toList := by
      intro hc
      rw [List.any_eq_false] at visible
      exact visible c hc blank
    rw [Value.literal, decode_eq_decodeKind (lacks (by decide)) (lacks (by decide)) true' false']
    simp only [List.mem_cons, List.not_mem_nil, or_false] at kinds
    rcases kinds with rfl | rfl <;> simp [decodeKind, ne, visible]

end Literal

end FilterLang
