import FilterLang.Json.Reader
import FilterLang.Proofs.Outcome

namespace FilterLang

/-!
# Json — what is written reads back

* `Json.Reads` — what a reader makes of a text that is followed by the end of a value.
* `Json.stringBody_quoted` — a string is read as it was.
* `Json.reads_list` — an array is read item by item; the first fault counts.
* `Json.Fills`, `Json.Record.reads_reader` — an object is read member by member.
* `Json.reads_value_object` — so are the members of any document.
-/

namespace Json

variable {α β σ : Type}

/-- What may follow a value: nothing, a comma or a closing bracket. -/
def EndsValue (rest : List Char) : Prop := ∀ c ∈ rest.head?, c = ',' ∨ c = ']' ∨ c = '\x7d'

theorem endsValue_nil : EndsValue [] := by simp [EndsValue]

/-- A comma or a closing bracket ends a value. -/
theorem endsValue_cons {c : Char} (h : c = ',' ∨ c = ']' ∨ c = '\x7d') (rest : List Char) :
    EndsValue (c :: rest) := by
  simpa [EndsValue] using h

/-- A reader takes exactly a text, whatever follows it, and gives a result; or it has a fault. -/
def Reads (reader : Reader α) (text : List Char) (result : Except Fault α) : Prop :=
  ∀ rest, EndsValue rest → reader (text ++ rest) = result.map (·, rest)

/-! ### Steps -/

/-- One reader after the other. -/
theorem bind_of_ok {reader : Reader α} {next : α → Reader β} {text rest : List Char} {a : α}
    (h : reader text = .ok (a, rest)) : (reader >>= next) text = next a rest := by
  show (reader text >>= fun p => next p.1 p.2) = _
  rw [h]
  rfl

/-- One reader after the other, if the first has a result. -/
theorem bind_of_map {reader : Reader α} {next : α → Reader β} {text rest : List Char}
    {result : Except Fault α} (h : reader text = result.map (·, rest)) :
    (reader >>= next) text = result >>= fun a => next a rest := by
  show (reader text >>= fun p => next p.1 p.2) = _
  rw [h]
  cases result <;> rfl

/-- What is made of a result that is read. -/
theorem Reads.bind {reader : Reader α} {text : List Char} {result : Except Fault α}
    (h : Reads reader text result) {next : α → Reader β} {then' : α → Except Fault β}
    (after : ∀ a rest, next a rest = (then' a).map (·, rest)) :
    Reads (reader >>= next) text (result >>= then') := by
  intro rest ends
  rw [bind_of_map (h rest ends)]
  cases result with
  | error fault => rfl
  | ok a => exact after a rest

/-- What has been read can be put into another form. -/
theorem Reads.then_pure {reader : Reader α} {text : List Char} {a : α}
    (h : Reads reader text (.ok a)) (f : α → β) :
    Reads (reader >>= fun a => pure (f a)) text (.ok (f a)) := by
  intro rest ends
  rw [bind_of_map (h rest ends)]
  rfl

theorem map_of_ok {reader : Reader α} {f : α → β} {text rest : List Char} {a : α}
    (h : reader text = .ok (a, rest)) : (f <$> reader) text = .ok (f a, rest) := by
  show (reader text >>= fun p => pure (f p.1, p.2)) = _
  rw [h]
  rfl

/-- The next character is found if it is no space. -/
theorem next?_cons {c : Char} (h : isSpace c = false) (rest : List Char) :
    next? (c :: rest) = .ok (some c, c :: rest) := by
  simp [next?, h]

theorem start_cons {c : Char} (h : isSpace c = false) (rest : List Char) :
    start (c :: rest) = .ok (c, c :: rest) :=
  bind_of_ok (next?_cons h rest)

theorem skip_cons (c : Char) (rest : List Char) : skip (c :: rest) = .ok ((), rest) := rfl

theorem colon_cons (rest : List Char) : colon (':' :: rest) = .ok ((), rest) := by
  rw [colon, bind_of_ok (next?_cons (by decide) rest)]
  rfl

theorem deeper_succ (depth : Nat) (text : List Char) :
    (liftM (deeper (depth + 1)) : Reader Nat) text = .ok (depth, text) := rfl

/-! ### Strings -/

/-- The digits of an escape are read as they were written. -/
theorem hexValue?_hexDigit {n : Nat} (h : n < 16) : hexValue? (hexDigit n) = some n := by
  revert n
  decide

/-- A control character is read back from its code. -/
theorem escape_control {c : Char} (h : c.toNat < 0x20) (rest : List Char) :
    escape ('u' :: '0' :: '0' :: hexDigit (c.toNat / 16) :: hexDigit (c.toNat % 16) :: rest) =
      .ok (c, rest) := by
  have high := @hexValue?_hexDigit (c.toNat / 16) (by omega)
  have low := @hexValue?_hexDigit (c.toNat % 16) (by omega)
  have zero : hexValue? '0' = some 0 := by decide
  have whole : ((0 * 16 + 0) * 16 + c.toNat / 16) * 16 + c.toNat % 16 = c.toNat := by omega
  have code : hexCode ('0' :: '0' :: hexDigit (c.toNat / 16) :: hexDigit (c.toNat % 16) :: rest) =
      .ok (c.toNat, rest) := by
    simp only [hexCode, high, low, zero, whole]
  have letter : letterEscape? 'u' = none := by decide
  -- the code is no surrogate
  have first : ¬(0xDC00 ≤ c.toNat ∧ c.toNat ≤ 0xDFFF) := by omega
  have second : ¬(0xD800 ≤ c.toNat ∧ c.toNat ≤ 0xDBFF) := by omega
  simp only [escape, letter, if_true, unicodeEscape, code, bind, Except.bind, if_neg first,
    if_neg second, Char.ofNat_toNat]
  rfl

/-- An escape is read as the character that it stands for. -/
theorem stringChars_escape {c : Char} {rest rest' : List Char} (h : escape rest = .ok (c, rest'))
    (fuel : Nat) (done : List Char) :
    stringChars (fuel + 1) done ('\\' :: rest) = stringChars fuel (c :: done) rest' := by
  simp [stringChars, h]

/-- A character that is written is read as it was. -/
theorem stringChars_escaped (c : Char) (fuel : Nat) (done rest : List Char) :
    stringChars (fuel + 1) done (escaped c ++ rest) = stringChars fuel (c :: done) rest := by
  unfold escaped
  split
  · subst c; rfl
  split
  · subst c; rfl
  split
  · subst c; rfl
  split
  · subst c; rfl
  split
  · subst c; rfl
  split
  · subst c; rfl
  split
  · subst c; rfl
  -- the other characters stand for themselves, except for control characters
  next quote slash _ _ _ _ _ =>
  split
  · next control => exact stringChars_escape (escape_control control rest) fuel done
  · next visible =>
    simp only [List.singleton_append, stringChars, if_neg quote, if_neg slash, if_neg visible]

theorem escaped_ne_nil (c : Char) : escaped c ≠ [] := by
  unfold escaped
  repeat' split
  all_goals simp

/-- A string is not shorter than its characters. -/
theorem length_le_flatMap_escaped (chars : List Char) :
    chars.length ≤ (chars.flatMap escaped).length := by
  induction chars with
  | nil => simp
  | cons c chars ih =>
    have := List.length_pos_iff.2 (escaped_ne_nil c)
    simp only [List.flatMap_cons, List.length_cons, List.length_append]
    omega

/-- The characters of a string are read up to the closing quote. -/
theorem stringChars_flatMap (chars : List Char) {fuel : Nat} (hf : chars.length < fuel)
    (done rest : List Char) :
    stringChars fuel done (chars.flatMap escaped ++ '"' :: rest) =
      .ok (done.reverse ++ chars, rest) := by
  induction chars generalizing fuel done with
  | nil =>
    obtain ⟨fuel, rfl⟩ := Nat.exists_eq_add_of_lt hf
    simp [stringChars]
  | cons c chars ih =>
    -- each character takes one round, however long it is written
    obtain ⟨fuel, rfl⟩ := Nat.exists_eq_succ_of_ne_zero (show fuel ≠ 0 by omega)
    rw [List.flatMap_cons, List.append_assoc, Nat.succ_eq_add_one, stringChars_escaped,
      ih (by simpa using hf), List.reverse_cons, List.append_assoc, List.singleton_append]

/-- A string is read as it was. -/
theorem stringBody_quoted (s : String) (rest : List Char) :
    stringBody (s.toList.flatMap escaped ++ '"' :: rest) = .ok (s, rest) := by
  have long := length_le_flatMap_escaped s.toList
  have fuel : s.toList.length < (s.toList.flatMap escaped ++ '"' :: rest).length := by
    simp only [List.length_append, List.length_cons]
    omega
  rw [stringBody, stringChars_flatMap s.toList fuel]
  simp [Except.map]

/-- A string is written between quotes, in front of any text alike. -/
theorem quoted_append (s : String) (rest : List Char) :
    quoted s ++ rest = '"' :: (s.toList.flatMap escaped ++ '"' :: rest) := by
  simp [quoted]

/-- A string is read as it was. -/
theorem reads_expectString (expected s : String) : Reads (expectString expected) (quoted s) (.ok s) := by
  intro rest _
  rw [quoted_append, expectString, bind_of_ok (start_cons (by decide) _), if_pos rfl,
    bind_of_ok (skip_cons _ _)]
  exact stringBody_quoted s rest

/-- A string is read where null could stand. -/
theorem reads_expectString? (expected s : String) :
    Reads (expectString? expected) (quoted s) (.ok (some s)) := by
  intro rest ends
  have read := reads_expectString expected s rest ends
  rw [quoted_append] at read ⊢
  rw [expectString?, bind_of_ok (start_cons (by decide) _), if_neg (by decide)]
  exact map_of_ok read

/-- One of several names is read as what it means. -/
theorem reads_expectVariant {names : List (String × α)} {name : String} {a : α}
    (known : variant names name = .ok a) (depth : Nat) :
    Reads (expectVariant depth names) (quoted name) (.ok a) := by
  intro rest _
  rw [quoted_append, expectVariant, bind_of_ok (start_cons (by decide) _), if_pos rfl,
    bind_of_ok (skip_cons _ _), bind_of_ok (stringBody_quoted _ _), known]
  rfl

/-! ### Arrays -/

/-- The first character of an item: no space, and not the end of the array. -/
def StartsItem (text : List Char) : Prop :=
  ∃ c rest, text = c :: rest ∧ isSpace c = false ∧ c ≠ ']'

/-- An array ends with its bracket. -/
theorem anotherItem_end (first : Bool) (rest : List Char) :
    anotherItem first (']' :: rest) = .ok (false, ']' :: rest) := by
  rw [anotherItem, bind_of_ok (next?_cons (by decide) rest)]
  rfl

/-- The first item needs no comma before it. -/
theorem anotherItem_first {text : List Char} (h : StartsItem text) (rest : List Char) :
    anotherItem true (text ++ rest) = .ok (true, text ++ rest) := by
  obtain ⟨c, more, rfl, space, other⟩ := h
  rw [List.cons_append, anotherItem, bind_of_ok (next?_cons space _)]
  simp only [if_neg other]
  rfl

/-- All others need one. -/
theorem anotherItem_later {text : List Char} (h : StartsItem text) (rest : List Char) :
    anotherItem false (',' :: (text ++ rest)) = .ok (true, text ++ rest) := by
  obtain ⟨c, more, rfl, space, other⟩ := h
  rw [anotherItem, bind_of_ok (next?_cons (by decide) _)]
  simp only [show ¬(',' = ']') by decide, if_false, Bool.false_eq_true, if_true]
  rw [bind_of_ok (skip_cons _ _), List.cons_append, bind_of_ok (next?_cons space _)]
  simp only [if_neg other]
  rfl

/-- The items after the first, each with the comma before it. -/
def laterItems (texts : List (List Char)) : List Char := texts.flatMap (',' :: ·)

/-- What comes after an item ends its value. -/
theorem endsValue_laterItems (texts : List (List Char)) (rest : List Char) :
    EndsValue (laterItems texts ++ ']' :: rest) := by
  cases texts with
  | nil => exact endsValue_cons (by decide) rest
  | cons text texts => exact endsValue_cons (by decide) _

/-- An item before the others. -/
theorem cons_of_map {item : Reader α} {others : Reader (List α)} {text more rest : List Char}
    {result : Except Fault α} {results : Except Fault (List α)}
    (first : item text = result.map (·, more)) (later : others more = results.map (·, rest)) :
    (do let a ← item; let as ← others; pure (a :: as) : Reader (List α)) text =
      (do let a ← result; let as ← results; pure (a :: as)).map (·, rest) := by
  rw [bind_of_map first]
  cases result with
  | error fault => rfl
  | ok a =>
    show (others >>= fun as => pure (a :: as)) more = _
    rw [bind_of_map later]
    cases results <;> rfl

/-- All items after the first are read one by one. -/
theorem items_later {item : Reader α} {text : β → List Char} {result : β → Except Fault α}
    {bs : List β} (h : ∀ b ∈ bs, StartsItem (text b) ∧ Reads item (text b) (result b)) {fuel : Nat}
    (hf : bs.length < fuel) (rest : List Char) :
    items item fuel false (laterItems (bs.map text) ++ ']' :: rest) =
      (bs.mapM result).map (·, rest) := by
  induction bs generalizing fuel with
  | nil =>
    obtain ⟨fuel, rfl⟩ := Nat.exists_eq_succ_of_ne_zero (show fuel ≠ 0 by omega)
    show items item (fuel + 1) false (']' :: rest) = _
    rw [items, bind_of_ok (anotherItem_end false rest)]
    rfl
  | cons b bs ih =>
    -- the comma, the item, and then the items after it
    obtain ⟨⟨starts, reads⟩, later⟩ := List.forall_mem_cons.1 h
    obtain ⟨fuel, rfl⟩ := Nat.exists_eq_succ_of_ne_zero (show fuel ≠ 0 by omega)
    have more : laterItems ((b :: bs).map text) ++ ']' :: rest =
        ',' :: (text b ++ (laterItems (bs.map text) ++ ']' :: rest)) := by
      simp [laterItems]
    rw [more, items, bind_of_ok (anotherItem_later starts _), List.mapM_cons]
    simp only [if_true]
    exact cons_of_map (reads _ (endsValue_laterItems _ rest)) (ih later (by simpa using hf))

/-- So the length of the text is fuel enough. -/
theorem length_le_laterItems (texts : List (List Char)) :
    texts.length ≤ (laterItems texts).length := by
  induction texts with
  | nil => simp
  | cons text texts ih =>
    simp only [laterItems, List.flatMap_cons, List.length_append, List.length_cons] at ih ⊢
    omega

/-- Items are written with commas before all of them but the first. -/
theorem itemsText_cons (item : Json) (later : List Json) :
    itemsText (item :: later) = item.text ++ laterItems (later.map text) := by
  induction later generalizing item with
  | nil => simp [itemsText, laterItems]
  | cons next later ih => simp [itemsText, ih, laterItems]

/-- An array is read item by item; the first fault counts. -/
theorem reads_listBody {item : Reader α} {json : β → Json} {result : β → Except Fault α}
    {bs : List β} (h : ∀ b ∈ bs, StartsItem (json b).text ∧ Reads item (json b).text (result b))
    (rest : List Char) :
    listBody item (itemsText (bs.map json) ++ ']' :: rest) = (bs.mapM result).map (·, rest) := by
  show items item ((itemsText (bs.map json) ++ ']' :: rest).length + 1) true
    (itemsText (bs.map json) ++ ']' :: rest) = _
  cases bs with
  | nil =>
    show items item ((']' :: rest).length + 1) true (']' :: rest) = _
    rw [items, bind_of_ok (anotherItem_end true rest)]
    rfl
  | cons b bs =>
    obtain ⟨⟨starts, reads⟩, later⟩ := List.forall_mem_cons.1 h
    have written : itemsText ((b :: bs).map json) =
        (json b).text ++ laterItems (bs.map fun b => (json b).text) := by
      rw [List.map_cons, itemsText_cons, List.map_map]
      rfl
    -- each item has a character at least, so that the length of the text is fuel enough
    have fuel : bs.length < (itemsText ((b :: bs).map json) ++ ']' :: rest).length := by
      have := length_le_laterItems (bs.map fun b => (json b).text)
      simp only [written, List.length_append, List.length_cons, List.length_map] at this ⊢
      omega
    generalize (itemsText ((b :: bs).map json) ++ ']' :: rest).length = bound at *
    rw [items, written, List.append_assoc, bind_of_ok (anotherItem_first starts _), List.mapM_cons]
    simp only [if_true]
    exact cons_of_map (reads _ (endsValue_laterItems _ rest)) (items_later later fuel rest)

/-- An array is read item by item. -/
theorem reads_list {item : Nat → Reader α} {json : β → Json} {result : β → Except Fault α}
    {bs : List β} {depth : Nat}
    (h : ∀ b ∈ bs, StartsItem (json b).text ∧ Reads (item depth) (json b).text (result b)) :
    Reads (list (depth + 1) item) (Json.array (bs.map json)).text (bs.mapM result) := by
  intro rest _
  have written : (Json.array (bs.map json)).text ++ rest =
      '[' :: (itemsText (bs.map json) ++ ']' :: rest) := by
    simp [Json.text]
  rw [written, list, bind_of_ok (start_cons (by decide) _), if_pos rfl,
    bind_of_ok (deeper_succ depth _), bind_of_ok (skip_cons _ _)]
  exact reads_listBody h rest

/-! ### Objects -/

/-- An object ends with its brace. -/
theorem nextName_end (first : Bool) (rest : List Char) :
    nextName first ('\x7d' :: rest) = .ok (none, '\x7d' :: rest) := by
  rw [nextName, bind_of_ok (next?_cons (by decide) rest)]
  rfl

/-- The first name needs no comma before it. -/
theorem nextName_first (name : String) (rest : List Char) :
    nextName true (quoted name ++ rest) = .ok (some name, rest) := by
  rw [quoted_append, nextName, bind_of_ok (next?_cons (by decide) _)]
  simp only [show ¬('"' = '\x7d') by decide, if_false, if_true]
  rw [pure_bind, if_pos rfl, bind_of_ok (skip_cons _ _)]
  exact map_of_ok (stringBody_quoted name rest)

/-- All others need one. -/
theorem nextName_later (name : String) (rest : List Char) :
    nextName false (',' :: (quoted name ++ rest)) = .ok (some name, rest) := by
  rw [quoted_append, nextName, bind_of_ok (next?_cons (by decide) _)]
  simp only [show ¬(',' = '\x7d') by decide, if_false, Bool.false_eq_true, if_true]
  rw [bind_of_ok (skip_cons _ _), bind_of_ok (start_cons (by decide) _), if_pos rfl,
    bind_of_ok (skip_cons _ _)]
  exact map_of_ok (stringBody_quoted name rest)

/-- The members after the first, each with the comma before it. -/
def laterMembers (ms : List (String × Json)) : List Char :=
  ms.flatMap fun (name, value) => ',' :: (quoted name ++ ':' :: value.text)

theorem endsValue_laterMembers (ms : List (String × Json)) (rest : List Char) :
    EndsValue (laterMembers ms ++ '\x7d' :: rest) := by
  cases ms with
  | nil => exact endsValue_cons (by decide) rest
  | cons m ms => exact endsValue_cons (by decide) _

/-- Members are written with commas before all of them but the first. -/
theorem membersText_cons (name : String) (value : Json) (later : List (String × Json)) :
    membersText ((name, value) :: later) =
      quoted name ++ ':' :: (value.text ++ laterMembers later) := by
  induction later generalizing name value with
  | nil => simp [membersText, laterMembers]
  | cons next later ih => simp [membersText, ih, laterMembers]

/-- The first member and what is written behind it. -/
theorem membersText_append (name : String) (value : Json) (later : List (String × Json))
    (rest : List Char) :
    membersText ((name, value) :: later) ++ rest =
      quoted name ++ (':' :: value.text ++ (laterMembers later ++ rest)) := by
  simp [membersText_cons]

/-- What a reader of members makes of members: from what has been read before to what has been read
in the end, or to the first fault. -/
inductive Fills (member : σ → String → Reader σ) : σ → List (String × Json) → Except Fault σ → Prop
  /-- Nothing is added. -/
  | nil (done : σ) : Fills member done [] (.ok done)
  /-- The first member is read, and then the others. -/
  | cons {done next : σ} {name : String} {value : Json} {later : List (String × Json)}
    {last : Except Fault σ} (first : Reads (member done name) (':' :: value.text) (.ok next))
    (rest : Fills member next later last) : Fills member done ((name, value) :: later) last
  /-- The first member has a fault. -/
  | fault {done : σ} {name : String} {value : Json} {later : List (String × Json)} {fault : Fault}
    (first : Reads (member done name) (':' :: value.text) (.error fault)) :
    Fills member done ((name, value) :: later) (.error fault)

theorem length_le_laterMembers (ms : List (String × Json)) :
    ms.length ≤ (laterMembers ms).length := by
  induction ms with
  | nil => simp
  | cons m ms ih =>
    simp only [laterMembers, List.flatMap_cons, List.length_append, List.length_cons] at ih ⊢
    omega

theorem laterMembers_cons (name : String) (value : Json) (later : List (String × Json))
    (rest : List Char) :
    laterMembers ((name, value) :: later) ++ rest =
      ',' :: (quoted name ++ (':' :: value.text ++ (laterMembers later ++ rest))) := by
  simp [laterMembers]

/-- All members after the first are read one by one. -/
theorem Fills.members_later {member : σ → String → Reader σ} {done : σ} {last : Except Fault σ}
    {ms : List (String × Json)} (h : Fills member done ms last) {fuel : Nat}
    (hf : ms.length < fuel) (rest : List Char) :
    members member fuel false done (laterMembers ms ++ '\x7d' :: rest) = last.map (·, rest) := by
  -- Induction on the members filled in; each uses up one unit of fuel, as the reader does.
  induction h generalizing fuel with
  | nil done =>
    obtain ⟨fuel, rfl⟩ := Nat.exists_eq_succ_of_ne_zero (show fuel ≠ 0 by omega)
    show members member (fuel + 1) false done ('\x7d' :: rest) = _
    rw [members, bind_of_ok (nextName_end false rest)]
    rfl
  | @cons done next name value later last first _ ih =>
    obtain ⟨fuel, rfl⟩ := Nat.exists_eq_succ_of_ne_zero (show fuel ≠ 0 by omega)
    rw [laterMembers_cons, members, bind_of_ok (nextName_later name _)]
    simp only
    rw [bind_of_ok (first _ (endsValue_laterMembers later rest))]
    exact ih (by simpa using hf)
  | @fault done name value later fault first =>
    obtain ⟨fuel, rfl⟩ := Nat.exists_eq_succ_of_ne_zero (show fuel ≠ 0 by omega)
    rw [laterMembers_cons, members, bind_of_ok (nextName_later name _)]
    exact bind_of_map (first _ (endsValue_laterMembers later rest))

/-- An object is read member by member. -/
theorem Fills.reads_objectBody {member : σ → String → Reader σ} {done : σ} {last : Except Fault σ}
    {ms : List (String × Json)} (h : Fills member done ms last) (rest : List Char) :
    objectBody member done (membersText ms ++ '\x7d' :: rest) = last.map (·, rest) := by
  show members member ((membersText ms ++ '\x7d' :: rest).length + 1) true done
    (membersText ms ++ '\x7d' :: rest) = _
  cases h with
  | nil =>
    show members member (('\x7d' :: rest).length + 1) true done ('\x7d' :: rest) = _
    rw [members, bind_of_ok (nextName_end true rest)]
    rfl
  | @fault _ name value later fault first =>
    rw [members, membersText_append, bind_of_ok (nextName_first name _)]
    exact bind_of_map (first _ (endsValue_laterMembers later rest))
  | @cons _ next name value later _ first more =>
    -- each member has a character at least
    have fuel : later.length < (membersText ((name, value) :: later) ++ '\x7d' :: rest).length := by
      have := length_le_laterMembers later
      simp only [membersText_cons, List.length_append, List.length_cons]
      omega
    generalize (membersText ((name, value) :: later) ++ '\x7d' :: rest).length = bound at *
    rw [members, membersText_append, bind_of_ok (nextName_first name _)]
    simp only
    rw [bind_of_ok (first _ (endsValue_laterMembers later rest))]
    exact more.members_later fuel rest

/-- An object is written between braces, in front of any text alike. -/
theorem object_append (ms : List (String × Json)) (rest : List Char) :
    (Json.object ms).text ++ rest = '\x7b' :: (membersText ms ++ '\x7d' :: rest) := by
  simp [Json.text]

/-! ### Records -/

namespace Record

variable {r : Record σ} {depth : Nat}

/-- A member with a slot is read by this slot, if it has not been read before. -/
theorem reads_member {slot : Slot σ} {done : σ} {next : Except Fault σ} {name : String}
    {text : List Char}
    (found : r.slots.find? (·.name = name) = some slot) (empty : slot.isFilled done = false)
    (h : Reads (slot.fill depth done) text next) :
    Reads (r.member depth done name) (':' :: text) next := by
  intro rest ends
  simp only [member, found, empty, Bool.false_eq_true, if_false]
  rw [List.cons_append, bind_of_ok (colon_cons _)]
  exact h rest ends

/-- A record that is written as an object is read member by member. -/
theorem reads_reader {ms : List (String × Json)} {last : Except Fault σ}
    (h : Fills (r.member depth) r.start ms last) :
    Reads (r.reader (depth + 1)) (Json.object ms).text last := by
  intro rest _
  rw [object_append, reader, bind_of_ok (start_cons (by decide) _),
    if_neg (show ¬('\x7b' = '[') by decide), if_pos rfl, bind_of_ok (deeper_succ depth _),
    bind_of_ok (skip_cons _ _)]
  exact h.reads_objectBody rest

end Record

/-! ### Any document -/

/-- Any reader of documents reads a string. -/
theorem reads_value_string (s : String) (depth : Nat) :
    Reads (value depth) (Json.string s).text (.ok (.string s)) := by
  intro rest _
  rw [Json.text, quoted_append]
  cases depth <;>
  · rw [value, valueWith, bind_of_ok (start_cons (by decide) _)]
    simp only [show ¬('"' = 'n') by decide, show ¬('"' = 't') by decide,
      show ¬('"' = 'f') by decide, show ¬('"' = '-' ∨ ('"').isDigit = true) by decide, if_false,
      if_true]
    rw [bind_of_ok (skip_cons _ _)]
    exact map_of_ok (stringBody_quoted s rest)

theorem reads_value_bool (b : Bool) (depth : Nat) :
    Reads (value depth) (Json.bool b).text (.ok (.bool b)) := by
  intro rest _
  cases b <;> cases depth <;>
  · rw [value, valueWith]
    rfl

/-- A document that starts like a number is read as one. -/
theorem reads_value_of_number {text : List Char} {result : Except Fault Json} {c : Char}
    {more : List Char} (h : Reads number text result) (first : text = c :: more)
    (hc : c = '-' ∨ c.isDigit = true) (depth : Nat) : Reads (value depth) text result := by
  intro rest ends
  have taken := h rest ends
  rw [first, List.cons_append] at taken ⊢
  -- a digit or a minus is neither blank nor the first letter of a word, so the number is tried
  have space : isSpace c = false := by
    rcases hc with rfl | digit
    · decide
    · simp only [isSpace, Bool.or_eq_false_iff, decide_eq_false_iff_not]
      refine ⟨⟨⟨?_, ?_⟩, ?_⟩, ?_⟩ <;> (rintro rfl; revert digit; decide)
  have letter : ¬c = 'n' ∧ ¬c = 't' ∧ ¬c = 'f' := by
    rcases hc with rfl | digit
    · decide
    · refine ⟨?_, ?_, ?_⟩ <;> (rintro rfl; revert digit; decide)
  cases depth <;>
  · rw [value, valueWith, bind_of_ok (start_cons space _), if_neg letter.1, if_neg letter.2.1,
      if_neg letter.2.2, if_pos hc]
    exact taken

/-- Members of any document are kept in their order. -/
theorem fills_anyMember {depth : Nat} {ms : List (String × Json)}
    (h : ∀ m ∈ ms, Reads (value depth) m.2.text (.ok m.2)) (done : List (String × Json)) :
    Fills (anyMember (value depth)) done ms (.ok (done ++ ms)) := by
  induction ms generalizing done with
  | nil => simpa using Fills.nil done
  | cons m ms ih =>
    obtain ⟨first, later⟩ := List.forall_mem_cons.1 h
    have added : Reads (anyMember (value depth) done m.1) (':' :: m.2.text) (.ok (done ++ [m])) := by
      intro rest ends
      rw [List.cons_append, anyMember, bind_of_ok (colon_cons _), bind_of_ok (first rest ends)]
      rfl
    refine .cons added ?_
    simpa using ih later (done ++ [m])

/-- An object whose values are read as they were is read as it was. -/
theorem reads_value_object {depth : Nat} {ms : List (String × Json)}
    (h : ∀ m ∈ ms, Reads (value depth) m.2.text (.ok m.2)) :
    Reads (value (depth + 1)) (Json.object ms).text (.ok (.object ms)) := by
  intro rest _
  rw [object_append, value, valueWith, bind_of_ok (start_cons (by decide) _)]
  simp only [show ¬('\x7b' = 'n') by decide, show ¬('\x7b' = 't') by decide,
    show ¬('\x7b' = 'f') by decide, show ¬('\x7b' = '-' ∨ ('\x7b').isDigit = true) by decide,
    show ¬('\x7b' = '"') by decide, show ¬('\x7b' = '[') by decide, or_true, if_false, if_true]
  rw [bind_of_ok (skip_cons _ _)]
  exact map_of_ok ((fills_anyMember h []).reads_objectBody rest)

/-! ### A whole text -/

/-- Nothing is left of a text that is just what a reader reads. -/
theorem whole_eq_of_reads {reader : Nat → Reader α} {text : List Char} {result : Except Fault α}
    (h : Reads (reader maxDepth) text result) : whole reader (String.ofList text) = result := by
  have read := h [] endsValue_nil
  rw [List.append_nil] at read
  rw [whole, String.toList_ofList, read]
  cases result <;> rfl

end Json

end FilterLang
