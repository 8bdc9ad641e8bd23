import Mathlib.Data.List.Forall2
import FilterLang.Proofs.Json.Yields

namespace FilterLang

/-!
# Json — readers that read the same

Two readers can take the same text and keep something else of it, and one of them can check more. What
the stricter one gives, the plain one gives in its own form.

* `Json.Refines` — a reader gives no more than a plain one, said by what the plain one makes of it.
* `Json.refines_bind`, `Json.refines_ite` — one lemma for each way in which readers are put together.
* `Json.Record.Refines` — the same for records, slot by slot; `Json.Record.Refines.reader` says that
  it is the same for their readers.
* `Json.Refines.of_whole` — and so for whole texts.
-/

namespace Json

variable {α α' β β' σ τ : Type}

/-- What a reader gives from a text, the plain one gives as well, in its own form and with the same rest
of the text. -/
def Refines (form : α → β) (reader : Reader α) (plain : Reader β) : Prop :=
  ∀ text a rest, reader text = .ok (a, rest) → plain text = .ok (form a, rest)

/-! ### Steps -/

theorem refines_self (reader : Reader α) : Refines id reader reader := fun _ _ _ h => h

theorem refines_pure (form : α → β) (a : α) : Refines form (pure a) (pure (form a)) := by
  intro text b rest h
  cases h
  rfl

/-- A reader that gives nothing refines any other. -/
theorem refines_of_yields_false {form : α → β} {reader : Reader α} {plain : Reader β}
    (h : Yields reader fun _ => False) : Refines form reader plain :=
  fun text a rest ha => (h text a rest ha).elim

/-- One step after the other, each in its form. -/
theorem refines_bind {form : α → β} {form' : α' → β'} {reader : Reader α} {plain : Reader β}
    {next : α → Reader α'} {next' : β → Reader β'} (first : Refines form reader plain)
    (second : ∀ a, Refines form' (next a) (next' (form a))) :
    Refines form' (reader >>= next) (plain >>= next') := by
  intro text b rest h
  obtain ⟨⟨a, between⟩, ha, hb⟩ := bind_eq_ok.1 h
  exact bind_eq_ok.2 ⟨_, first text a between ha, second a between b rest hb⟩

/-- When the first step is the same. -/
theorem refines_then {form : α' → β'} {reader : Reader α} {next : α → Reader α'}
    {next' : α → Reader β'} (second : ∀ a, Refines form (next a) (next' a)) :
    Refines form (reader >>= next) (reader >>= next') :=
  refines_bind (refines_self reader) second

theorem refines_ite {form : α → β} {c : Prop} [Decidable c] {first second : Reader α}
    {first' second' : Reader β} (h : Refines form first first') (h' : Refines form second second') :
    Refines form (if c then first else second) (if c then first' else second') := by
  split
  · exact h
  · exact h'

/-- A result that does not depend on the text. -/
theorem refines_lift {form : α → β} {result : Except Fault α} {plain : Except Fault β}
    (h : ∀ a, result = .ok a → plain = .ok (form a)) :
    Refines form (liftM result) (liftM plain) := by
  intro text a rest ha
  cases result with
  | error fault => cases ha
  | ok b =>
    cases ha
    rw [h a rfl]
    rfl

/-! ### Objects -/

/-- The members of an object, one by one: what has been read of them stays in its form. -/
theorem refines_members {form : σ → τ} {member : σ → String → Reader σ}
    {member' : τ → String → Reader τ}
    (h : ∀ done name, Refines form (member done name) (member' (form done) name)) (fuel : Nat)
    (first : Bool) (done : σ) :
    Refines form (members member fuel first done) (members member' fuel first (form done)) := by
  induction fuel generalizing first done with
  | zero => exact refines_of_yields_false (yields_throw _)
  | succ fuel ih =>
    apply refines_then
    intro name
    cases name with
    | some name => exact refines_bind (h done name) fun next => ih false next
    | none => exact refines_then fun _ => refines_pure form done

/-- So does all that is read of an object. -/
theorem refines_objectBody {form : σ → τ} {member : σ → String → Reader σ}
    {member' : τ → String → Reader τ}
    (h : ∀ done name, Refines form (member done name) (member' (form done) name)) (done : σ) :
    Refines form (objectBody member done) (objectBody member' (form done)) :=
  refines_then fun _ => refines_members h _ true done

/-! ### Records -/

/-- A slot is filled as the plain one is. -/
structure Slot.Refines (form : σ → τ) (slot : Slot σ) (plain : Slot τ) : Prop where
  name : slot.name = plain.name
  optional : slot.optional = plain.optional
  isFilled : ∀ done, slot.isFilled done = plain.isFilled (form done)
  fill : ∀ depth done, Json.Refines form (slot.fill depth done) (plain.fill depth (form done))

namespace Record

/-- A record starts as the plain one and has the same slots. -/
structure Refines (form : σ → τ) (r : Record σ) (plain : Record τ) : Prop where
  start : form r.start = plain.start
  slots : List.Forall₂ (Slot.Refines form) r.slots plain.slots

variable {form : σ → τ} {r : Record σ} {plain : Record τ}

/-- The slots of a name are found together. -/
theorem rel_find? {slots : List (Slot σ)} {slots' : List (Slot τ)}
    (h : List.Forall₂ (Slot.Refines form) slots slots') (name : String) :
    Option.Rel (Slot.Refines form) (slots.find? (·.name = name)) (slots'.find? (·.name = name)) := by
  induction h with
  | nil => exact .none
  | cons first _ ih =>
    rw [List.find?_cons, List.find?_cons, first.name]
    split
    · exact .some first
    · exact ih

/-- A member is looked up and read alike. -/
theorem Refines.member (h : r.Refines form plain) (depth : Nat) (done : σ) (name : String) :
    Json.Refines form (r.member depth done name) (plain.member depth (form done) name) := by
  unfold Record.member
  have found := rel_find? h.slots name
  generalize r.slots.find? (·.name = name) = slot?, plain.slots.find? (·.name = name) = slot'?
    at found ⊢
  cases found with
  | none => exact refines_then fun _ => refines_then fun _ => refines_pure form done
  | some slot =>
    -- both have been read before or neither has, and a repeated member is a fault
    simp only [slot.isFilled]
    refine refines_ite (refines_of_yields_false ?_) (refines_then fun _ => slot.fill depth done)
    exact yields_bind (yields_throw _) fun _ => False.elim

/-- The values of an array are read alike, and the same ones may be left out. -/
theorem refines_values {slots : List (Slot σ)} {slots' : List (Slot τ)}
    (h : List.Forall₂ (Slot.Refines form) slots slots') (depth index : Nat) (done : σ) :
    Json.Refines form (r.values depth slots index done)
      (plain.values depth slots' index (form done)) := by
  induction h generalizing index done with
  | nil => exact refines_pure form done
  | cons slot _ ih =>
    refine refines_then fun another => refines_ite ?_ ?_
    · exact refines_bind (slot.fill depth done) fun next => ih _ next
    · rw [slot.optional]
      exact refines_ite (ih _ done) (refines_of_yields_false (yields_throw _))

/-- The reader of a record refines the one of the plain record. -/
theorem Refines.reader (h : r.Refines form plain) (depth : Nat) :
    Json.Refines form (r.reader depth) (plain.reader depth) := by
  refine refines_then fun c => refines_ite ?_ (refines_ite ?_ ?_)
  · -- an array of the values of all slots
    refine refines_then fun inside => refines_then fun _ => ?_
    rw [← h.start]
    refine refines_bind (refines_values h.slots inside 0 r.start) fun done => ?_
    exact refines_then fun _ => refines_pure form done
  · -- an object with a member for each slot
    refine refines_then fun inside => refines_then fun _ => ?_
    rw [← h.start]
    exact refines_objectBody (h.member inside) r.start
  · exact refines_of_yields_false (yields_unexpected _ _)

end Record

/-! ### Whole texts -/

/-- What a reader makes of a whole text, the plain one makes of it in its own form. -/
theorem Refines.of_whole {form : α → β} {reader : Nat → Reader α} {plain : Nat → Reader β}
    (h : ∀ depth, Refines form (reader depth) (plain depth)) {text : String} {a : α}
    (ha : whole reader text = .ok a) : whole plain text = .ok (form a) := by
  obtain ⟨⟨b, rest⟩, hb, last⟩ := bind_eq_ok.1 ha
  refine bind_eq_ok.2 ⟨_, h maxDepth _ _ _ hb, ?_⟩
  simp only at last ⊢
  split at last
  next ended =>
    cases last
    rw [if_pos ended]
    rfl
  next => cases last

end Json

end FilterLang
