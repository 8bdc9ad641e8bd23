import Mathlib.Data.List.Forall2

namespace FilterLang

/-!
# Outcome — results and faults

What is shared by all that can fail.

* `bind_eq_ok` — what one step after the other gives, the inversion of all readers.
* `mapM_eq_ok_iff` — one step for each item of a list gives a result if each of them does.
-/

variable {ε ε' α β : Type}

/-- Two steps have a result if the first has one and the second has one with it. -/
theorem bind_eq_ok {x : Except ε α} {f : α → Except ε β} {b : β} :
    (x >>= f) = .ok b ↔ ∃ a, x = .ok a ∧ f a = .ok b := by
  cases x <;> simp [bind, Except.bind]

theorem toOption_eq_some_iff {x : Except ε α} {a : α} : x.toOption = some a ↔ x = .ok a := by
  cases x <;> simp [Except.toOption]

@[simp] theorem mapError_ok (f : ε → ε') (a : α) :
    (Except.ok a : Except ε α).mapError f = .ok a := rfl

@[simp] theorem mapError_error (f : ε → ε') (e : ε) :
    (Except.error e : Except ε α).mapError f = .error (f e) := rfl

/-- A list is mapped item by item, and all items need a result. -/
theorem mapM_eq_ok_iff {f : α → Except ε β} {as : List α} {bs : List β} :
    as.mapM f = .ok bs ↔ List.Forall₂ (fun a b => f a = .ok b) as bs := by
  -- Induction on the arguments: the run goes on only after a result.
  induction as generalizing bs with
  | nil =>
    rw [List.forall₂_nil_left_iff]
    exact ⟨fun h => (Except.ok.inj h).symm, fun h => h ▸ rfl⟩
  | cons a as ih =>
    rw [List.mapM_cons, bind_eq_ok, List.forall₂_cons_left_iff]
    constructor
    · rintro ⟨b, first, later⟩
      obtain ⟨others, results, rest⟩ := bind_eq_ok.1 later
      exact ⟨b, others, first, ih.1 results, (Except.ok.inj rest).symm⟩
    · rintro ⟨b, others, first, results, rfl⟩
      exact ⟨b, first, bind_eq_ok.2 ⟨others, ih.2 results, rfl⟩⟩

end FilterLang
