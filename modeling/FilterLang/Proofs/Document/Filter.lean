import FilterLang.Document.Filter
import FilterLang.Proofs.Json.Yields
import FilterLang.Proofs.Query.Literal

namespace FilterLang

/-!
# Document — filters that are read

* `Value.isRegular_of_ofJson` — the value of a document is regular.
* `Filter.isRegular_of_parseList` — so is every value in a list of filters that is read.
-/

/-- A date in a document is cut down to milliseconds. -/
theorem Value.isRegular_of_ofMembers {members : List (String × Json)} {v : Value}
    (h : ofMembers members = .ok v) : v.IsRegular := by
  unfold ofMembers at h
  split at h
  · cases h
  · split at h
    · cases h
    · split at h
      · -- a date is the only value with something to keep: truncation leaves its clock regular
        next i hi => cases h; exact (Instant.isOnClock_of_ofRfc3339? hi).isRegular_truncated
      · cases h
  · split at h
    · cases h; trivial
    · cases h
  · cases h

/-- What a document means is regular: a date has been cut to milliseconds, and everything else is.
-/
theorem Value.isRegular_of_ofJson {j : Json} {v : Value} (h : ofJson j = .ok v) : v.IsRegular := by
  cases j with
  | object members => exact isRegular_of_ofMembers h
  | null | array _ => cases h
  | bool _ | integer _ | real _ | string _ => cases h; trivial

/-- So all values that are read are regular. -/
theorem Value.yields_reader (depth : Nat) : Json.Yields (reader depth) IsRegular := by
  refine Json.yields_then fun j => ?_
  cases h : ofJson j with
  | ok v => exact Json.yields_pure (isRegular_of_ofJson h)
  | error misfit => exact Json.yields_throw _

namespace Filter

/-- Whatever has been read as a value is regular. -/
def Draft.IsRegular (draft : Draft) : Prop := ∀ v, draft.compareTo = some v → v.IsRegular

/-- Members of a filter are read one by one, and a value among them is regular. -/
theorem keeps_record : record.Keeps Draft.IsRegular where
  start := by
    intro v hv
    cases hv
  fill := by
    intro slot hslot depth done hd
    simp only [record, List.mem_cons, List.not_mem_nil, or_false] at hslot
    rcases hslot with rfl | rfl | rfl
    · exact Json.yields_then fun _ => Json.yields_pure hd
    · exact Json.yields_then fun _ => Json.yields_pure hd
    · -- the value slot, the only one whose reader has to be known
      refine Json.yields_bind (Value.yields_reader depth) fun v hv => Json.yields_pure ?_
      intro w hw
      cases hw
      exact hv

/-- A filter has the value that has been read. -/
theorem Draft.isRegular_of_finish {draft : Draft} {f : Filter} (h : draft.finish = .ok f)
    (hd : draft.IsRegular) : f.compareTo.IsRegular := by
  simp only [finish, bind_eq_ok] at h
  obtain ⟨field, -, constraint, -, v, hv, h⟩ := h
  cases h
  apply hd
  cases value : draft.compareTo with
  | none => rw [value] at hv; cases hv
  | some w => rw [value] at hv; cases hv; rfl

/-- All filters that are read have regular values. -/
theorem yields_reader (depth : Nat) : Json.Yields (reader depth) fun f => f.compareTo.IsRegular := by
  refine Json.yields_bind (keeps_record.yields_reader depth) fun draft hd => ?_
  exact Json.yields_lift fun f hf => draft.isRegular_of_finish hf hd

/-- All values in a list of filters that is read are regular. -/
theorem isRegular_of_parseList {text : String} {filters : List Filter}
    (h : parseList text = .ok filters) : ∀ f ∈ filters, f.compareTo.IsRegular :=
  Json.Yields.of_whole (Json.yields_list yields_reader) h

end Filter

end FilterLang
