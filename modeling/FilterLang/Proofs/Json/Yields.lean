import FilterLang.Json.Reader
import FilterLang.Proofs.Outcome

namespace FilterLang

/-!
# Json — what readers can give

* `Json.Yields` — all that a reader gives has a property.
* `Json.yields_bind`, `Json.yields_ite` — one lemma for each way in which readers are put together.
* `Json.yields_list` — the items of an array have the property of one item.
* `Json.Record.yields_reader` — a record keeps what each of its slots keeps.
-/

namespace Json

variable {α β σ : Type}

/-- All that a reader gives, from any text, has the property. -/
def Yields (reader : Reader α) (P : α → Prop) : Prop :=
  ∀ text a rest, reader text = .ok (a, rest) → P a

/-! ### Steps -/

theorem yields_true (reader : Reader α) : Yields reader fun _ => True := fun _ _ _ _ => trivial

theorem yields_pure {a : α} {P : α → Prop} (h : P a) : Yields (pure a) P := by
  intro text b rest hb
  cases hb
  exact h

/-- A fault gives nothing. -/
theorem yields_throw (fault : Fault) {P : α → Prop} : Yields (throw fault) P := by
  intro text a rest ha
  cases ha

/-- What is known of the first step can be used for the second. -/
theorem yields_bind {reader : Reader α} {next : α → Reader β} {P : α → Prop} {Q : β → Prop}
    (first : Yields reader P) (second : ∀ a, P a → Yields (next a) Q) :
    Yields (reader >>= next) Q := by
  intro text b rest h
  obtain ⟨⟨a, between⟩, ha, hb⟩ := bind_eq_ok.1 h
  exact second a (first text a between ha) between b rest hb

/-- When nothing is known of the first step. -/
theorem yields_then {reader : Reader α} {next : α → Reader β} {Q : β → Prop}
    (second : ∀ a, Yields (next a) Q) : Yields (reader >>= next) Q :=
  yields_bind (yields_true reader) fun a _ => second a

/-- Either branch, with the condition that leads to it. -/
theorem yields_ite {c : Prop} [Decidable c] {first second : Reader α} {P : α → Prop}
    (h : c → Yields first P) (h' : ¬c → Yields second P) :
    Yields (if c then first else second) P := by
  split
  · next hc => exact h hc
  · next hc => exact h' hc

/-- A result that does not depend on the text. -/
theorem yields_lift {result : Except Fault α} {P : α → Prop} (h : ∀ a, result = .ok a → P a) :
    Yields (liftM result) P := by
  intro text a rest ha
  cases result with
  | error fault => cases ha
  | ok b => cases ha; exact h a rfl

/-- What is not expected gives nothing. -/
theorem yields_unexpected (expected : String) (c : Char) {P : α → Prop} :
    Yields (unexpected expected c) P := by
  unfold unexpected
  -- whatever is found instead, it ends in a fault
  refine yields_ite (fun _ => ?_) fun _ => yields_ite (fun _ => ?_) fun _ =>
    yields_ite (fun _ => ?_) fun _ => yields_ite (fun _ => ?_) fun _ => yields_ite (fun _ => ?_) fun _ =>
    yields_ite (fun _ => ?_) fun _ => yields_ite (fun _ => ?_) fun _ => ?_
  · exact yields_then fun _ => yields_then fun _ => yields_throw _
  · exact yields_then fun _ => yields_then fun _ => yields_throw _
  · exact yields_then fun _ => yields_then fun _ => yields_throw _
  · apply yields_then
    intro read
    cases read <;> exact yields_throw _
  · exact yields_then fun _ => yields_then fun _ => yields_throw _
  · exact yields_throw _
  · exact yields_throw _
  · exact yields_throw _

/-! ### Arrays -/

/-- Each item that is read has the property. -/
theorem yields_items {item : Reader α} {P : α → Prop} (h : Yields item P) (fuel : Nat)
    (first : Bool) : Yields (items item fuel first) fun as => ∀ a ∈ as, P a := by
  induction fuel generalizing first with
  | zero => exact yields_throw _
  | succ fuel ih =>
    refine yields_then fun another => yields_ite (fun _ => ?_) fun _ => ?_
    · refine yields_bind h fun a ha => yields_bind (ih false) fun as has => yields_pure ?_
      exact List.forall_mem_cons.2 ⟨ha, has⟩
    · exact yields_then fun _ => yields_pure (by simp)

/-- The items of an array. -/
theorem yields_list {item : Nat → Reader α} {P : α → Prop} (h : ∀ depth, Yields (item depth) P)
    (depth : Nat) : Yields (list depth item) fun as => ∀ a ∈ as, P a := by
  refine yields_then fun c => yields_ite (fun _ => ?_) fun _ => yields_unexpected _ _
  refine yields_then fun inside => yields_then fun _ => ?_
  exact yields_then fun _ => yields_items (h inside) _ _

/-! ### Objects -/

/-- A property is kept if each member keeps it. -/
theorem yields_members {member : σ → String → Reader σ} {P : σ → Prop}
    (h : ∀ done name, P done → Yields (member done name) P) (fuel : Nat) (first : Bool) {done : σ}
    (start : P done) : Yields (members member fuel first done) P := by
  induction fuel generalizing first done with
  | zero => exact yields_throw _
  | succ fuel ih =>
    apply yields_then
    intro name
    cases name with
    | some name => exact yields_bind (h done name start) fun next hn => ih false hn
    | none => exact yields_then fun _ => yields_pure start

namespace Record

/-- A record keeps a property: it holds before anything is read, and each slot keeps it. -/
structure Keeps (r : Record σ) (P : σ → Prop) : Prop where
  start : P r.start
  fill : ∀ slot ∈ r.slots, ∀ depth done, P done → Yields (slot.fill depth done) P

variable {r : Record σ} {P : σ → Prop}

/-- A member with a slot keeps what its slot keeps, and any other one changes nothing. -/
theorem Keeps.yields_member (h : r.Keeps P) (depth : Nat) (done : σ) (name : String) (hd : P done) :
    Yields (r.member depth done name) P := by
  unfold member
  split
  · next slot found =>
    have fill := h.fill slot (List.mem_of_find?_eq_some found) depth done hd
    refine yields_ite (fun _ => ?_) fun _ => ?_
    · exact yields_then fun _ => yields_then fun _ => fill
    · exact yields_then fun _ => fill
  · exact yields_then fun _ => yields_then fun _ => yields_pure hd

/-- So do the values of an array, slot after slot. -/
theorem Keeps.yields_values (h : r.Keeps P) (depth : Nat) {slots : List (Slot σ)}
    (hs : ∀ slot ∈ slots, slot ∈ r.slots) (index : Nat) {done : σ} (hd : P done) :
    Yields (r.values depth slots index done) P := by
  induction slots generalizing index done with
  | nil => exact yields_pure hd
  | cons slot slots ih =>
    obtain ⟨hslot, hslots⟩ := List.forall_mem_cons.1 hs
    refine yields_then fun another =>
      yields_ite (fun _ => ?_) fun _ => yields_ite (fun _ => ?_) fun _ => ?_
    · exact yields_bind (h.fill slot hslot depth done hd) fun next hn => ih hslots _ hn
    · exact ih hslots _ hd
    · exact yields_throw _

/-- What a record keeps holds of all that is read. -/
theorem Keeps.yields_reader (h : r.Keeps P) (depth : Nat) : Yields (r.reader depth) P := by
  refine yields_then fun c => yields_ite (fun _ => ?_) fun _ => yields_ite (fun _ => ?_) fun _ => ?_
  · -- an array of the values of all slots
    refine yields_then fun inside => yields_then fun _ => ?_
    refine yields_bind (h.yields_values inside (fun _ hs => hs) 0 h.start) fun done hd => ?_
    exact yields_then fun _ => yields_pure hd
  · -- an object with a member for each slot
    refine yields_then fun inside => yields_then fun _ => yields_then fun text => ?_
    exact yields_members (h.yields_member inside) _ _ h.start
  · exact yields_unexpected _ _

end Record

/-- What holds of all that a reader gives holds of what it makes of a whole text. -/
theorem Yields.of_whole {reader : Nat → Reader α} {P : α → Prop} (h : ∀ depth, Yields (reader depth) P)
    {text : String} {a : α} (ha : whole reader text = .ok a) : P a := by
  obtain ⟨⟨b, rest⟩, hb, last⟩ := bind_eq_ok.1 ha
  simp only at last
  split at last
  · cases last; exact h maxDepth _ _ _ hb
  · cases last

end Json

end FilterLang
