import FilterLang.Document.Filter
import FilterLang.Proofs.Double.Exact
import FilterLang.Proofs.Json.Number
import FilterLang.Proofs.Query.Literal

namespace FilterLang

/-!
# Document — filters that are written and read

* `Value.reread` — what a value is read as that was written as JSON.
* `Value.SurvivesJson` — the values that are not changed by that: dates of the years with four
  digits, and numbers that their shortest decimal gives again, as it does if it is short
  (`Value.survivesJson_of_short`).
* `Value.agrees_reread_iff` — a value is read as it was if and only if it survives.
* `Filter.parseList_render` — a list of filters is read filter by filter; the first fault counts.
-/

namespace Value

/-- What a value is read as that was written as JSON, or the fault. -/
def reread (v : Value) : Except Json.Fault Value := do
  (ofJson (← v.json.reread)).mapError fun misfit => .refused misfit.message

/-- Whether a value is the same after it has been written as JSON and read again. -/
def SurvivesJson : Value → Prop
  | date i => 0 ≤ i.day.year ∧ i.day.year ≤ 9999
  | number d =>
    (∃ n ∈ d.whole?, n.natAbs < Json.integerBound) ∨
      ∃ again ∈ (Json.scaled (.ofNat (Decimal.shortest .even d.magnitude).digits)
        (Decimal.shortest .even d.magnitude).exponent 4).toOption, again.magnitude = d.magnitude
  | _ => True

instance : DecidablePred SurvivesJson
  | date _ => inferInstanceAs (Decidable (_ ∧ _))
  | number _ => inferInstanceAs (Decidable (_ ∨ _))
  | bool _ | text _ | pointer _ _ => inferInstanceAs (Decidable True)

/-! ### Reading a value -/

/-- The document of a value is read as the document that it comes back as. -/
theorem reads_value_json (v : Value) (depth : Nat) :
    Json.Reads (Json.value (depth + 1)) v.json.text v.json.reread := by
  cases v with
  | bool b => exact Json.reads_value_bool b _
  | number d =>
    obtain ⟨c, more, written, first⟩ := Json.exists_start_ofDouble d
    exact Json.reads_value_of_number (Json.reads_number_ofDouble d) written first _
  | text s => exact Json.reads_value_string s _
  | date i =>
    apply Json.reads_value_object
    intro m hm
    simp only [List.mem_cons, List.not_mem_nil, or_false] at hm
    rcases hm with rfl | rfl <;> exact Json.reads_value_string _ _
  | pointer targetClass objectId =>
    apply Json.reads_value_object
    intro m hm
    simp only [List.mem_cons, List.not_mem_nil, or_false] at hm
    rcases hm with rfl | rfl | rfl <;> exact Json.reads_value_string _ _

/-- A value is read as what it comes back as. -/
theorem reads_reader (v : Value) (depth : Nat) :
    Json.Reads (reader (depth + 1)) v.json.text v.reread := by
  apply (v.reads_value_json depth).bind
  intro j rest
  cases ofJson j <;> rfl

/-! ### Values that survive -/

/-- A value whose document comes back comes back as what this document means. -/
theorem reread_of_ok {v w : Value} {j : Json} (read : v.json.reread = .ok j)
    (meant : ofJson j = .ok w) : v.reread = .ok w := by
  show (v.json.reread >>= fun j => _) = _
  rw [read]
  show (ofJson j).mapError _ = _
  rw [meant, mapError_ok]

theorem reread_of_error {v : Value} {j : Json} {misfit : Misfit} (read : v.json.reread = .ok j)
    (meant : ofJson j = .error misfit) : v.reread = .error (.refused misfit.message) := by
  show (v.json.reread >>= fun j => _) = _
  rw [read]
  show (ofJson j).mapError _ = _
  rw [meant, mapError_error]

/-- The text of a date in a document is read as RFC 3339. -/
theorem ofJson_iso (iso : String) :
    ofJson (.object [("__type", .string "Date"), ("iso", .string iso)]) =
      ((Instant.ofRfc3339? iso.toList).mapError (.badIso iso)).map fun i => .date i.truncated := by
  let members := [("__type", Json.string "Date"), ("iso", .string iso)]
  have type : textMember? members "__type" = some "Date" := rfl
  have text : textMember? members "iso" = some iso := rfl
  show ofMembers members = _
  simp only [ofMembers, type, text]
  cases Instant.ofRfc3339? iso.toList <;> rfl

/-- The document of a date means what its text means. -/
theorem ofJson_date (i : Instant) :
    ofJson (date i).json =
      ((Instant.ofRfc3339? i.iso).mapError (.badIso (String.ofList i.iso))).map
        fun again => .date again.truncated := by
  have read := ofJson_iso (String.ofList i.iso)
  rw [String.toList_ofList] at read
  exact read

/-- A date in the years with four digits is read as it was. -/
theorem ofJson_date_of_year {i : Instant} (h : i.IsRegular)
    (year : 0 ≤ i.day.year ∧ i.day.year ≤ 9999) : ofJson (date i).json = .ok (date i) := by
  have read : ofJson (date i).json = .ok (date i.truncated) := by
    rw [ofJson_date, Instant.ofRfc3339?_iso h year]
    rfl
  rw [read, Instant.truncated_eq_self h.millis]

/-- All other dates are refused. -/
theorem ofJson_date_of_not_year {i : Instant} (year : ¬(0 ≤ i.day.year ∧ i.day.year ≤ 9999)) :
    ofJson (date i).json = .error (.badIso (String.ofList i.iso) .malformed) := by
  rw [ofJson_date, Instant.ofRfc3339?_iso_eq_error year]
  rfl

/-- The integer of a double is read as this double, but for the sign of zero. -/
theorem ofJson_integer {d : Double} {n : Int} (whole : d.whole? = some n) :
    ∃ w, ofJson (.integer n) = .ok w ∧ w.agrees (number d) = true := by
  obtain ⟨dvd, size, sign⟩ := Double.of_whole? whole
  refine ⟨number ⟨n < 0, d.magnitude⟩, ?_, Double.agrees_iff.2 ⟨rfl, sign⟩⟩
  rw [← Double.ofNat_whole dvd, ← size]
  rfl

/-- The document of a reference means this reference. -/
theorem ofJson_pointer (targetClass objectId : String) :
    ofJson (pointer targetClass objectId).json = .ok (.pointer targetClass objectId) := by
  simp [json, ofJson, ofMembers, textMember?, Json.member?]

/-- A date survives in the years with four digits. -/
theorem agrees_reread_date_iff {i : Instant} (h : i.IsRegular) :
    (∃ w, (date i).reread = .ok w ∧ w.agrees (date i) = true) ↔ (date i).SurvivesJson := by
  by_cases year : 0 ≤ i.day.year ∧ i.day.year ≤ 9999
  · exact iff_of_true ⟨_, reread_of_ok rfl (ofJson_date_of_year h year), agrees_self _⟩ year
  · refine iff_of_false ?_ year
    rintro ⟨w, read, -⟩
    rw [reread_of_error rfl (ofJson_date_of_not_year year)] at read
    cases read

/-- A number that is written as an integer survives, and so does one that its shortest decimal gives
again. -/
theorem agrees_reread_number_iff (d : Double) :
    (∃ w, (number d).reread = .ok w ∧ w.agrees (number d) = true) ↔ (number d).SurvivesJson := by
  rcases Json.ofDouble_cases d with ⟨n, whole, small, written⟩ | ⟨other, written⟩
  · obtain ⟨w, meant, same⟩ := ofJson_integer whole
    have read : (number d).json.reread = .ok (.integer n) := congrArg Json.reread written
    -- written as an integer, which both ways of reading return unchanged
    exact iff_of_true ⟨w, reread_of_ok read meant, same⟩ (.inl ⟨n, whole, small⟩)
  · have json : (number d).json.reread = Json.realOf d.negative _ _ := congrArg Json.reread written
    -- written with its shortest digits, scaled by the reader: it is the same number exactly when
    -- the scaling lands on the double that was written
    rw [SurvivesJson, or_iff_right other]
    cases again : Json.scaled (.ofNat (Decimal.shortest .even d.magnitude).digits)
        (Decimal.shortest .even d.magnitude).exponent 4 with
    | error fault =>
      have read : (number d).reread = .error fault := by
        show (number d).json.reread >>= _ = _
        rw [json, Json.realOf, again]
        rfl
      simp [read, toOption_eq_some_iff]
    | ok again' =>
      have read : (number d).json.reread = .ok (.real ⟨d.negative, again'.magnitude⟩) := by
        rw [json, Json.realOf, again]
        rfl
      simp [reread_of_ok read rfl, agrees, Double.agrees_iff, toOption_eq_some_iff]

/-- The values that are read as they were written are those that survive. -/
theorem agrees_reread_iff {v : Value} (h : v.IsRegular) :
    (∃ w, v.reread = .ok w ∧ w.agrees v = true) ↔ v.SurvivesJson := by
  cases v with
  | bool b => exact iff_of_true ⟨_, reread_of_ok rfl rfl, agrees_self _⟩ trivial
  | number d => exact agrees_reread_number_iff d
  | text s => exact iff_of_true ⟨_, reread_of_ok rfl rfl, agrees_self _⟩ trivial
  | date i => exact agrees_reread_date_iff h
  | pointer targetClass objectId =>
    exact iff_of_true ⟨_, reread_of_ok rfl (ofJson_pointer _ _), agrees_self _⟩ trivial

end Value

/-- Numbers with few digits survive: their digits and the power of ten are doubles, so that reading
rounds only once. -/
theorem Value.survivesJson_of_short {d : Double}
    (short : (Decimal.shortest .even d.magnitude).digits < 2 * fractionCount)
    (near : (Decimal.shortest .even d.magnitude).exponent.natAbs ≤ 22) :
    (number d).SurvivesJson := by
  have back := Decimal.place_shortest .even d.magnitude
  have fits := Nat.lt_of_le_of_lt (Nat.le_of_eq back) d.magnitude.isLt
  exact .inr ⟨_, toOption_eq_some_iff.2 (Json.scaled_of_short short near fits), Fin.ext back⟩

/-! ### The order of members -/

theorem Json.sortedItems_eq_map (items : List Json) : sortedItems items = items.map sorted := by
  induction items with
  | nil => rfl
  | cons item items ih => rw [sortedItems, ih, List.map_cons]

/-- The members of a value are in the order of their names. -/
theorem Value.sorted_json (v : Value) : v.json.sorted = v.json := by
  cases v with
  | bool b => rfl
  | number d =>
    rcases Json.ofDouble_cases d with ⟨n, -, -, written⟩ | ⟨-, written⟩ <;>
      rw [json, written, Json.sorted] <;> simp
  | text s => rfl
  | date i => simp [json, Json.sorted, Json.sortedMembers, List.mergeSort]
  | pointer targetClass objectId => simp [json, Json.sorted, Json.sortedMembers, List.mergeSort]

namespace Filter

/-- The members of a filter in the order of their names. -/
theorem sorted_json (f : Filter) :
    f.json.sorted = .object [("compareTo", f.compareTo.json),
      ("constraint", .string f.constraint.spelling), ("field", .string f.field)] := by
  simp [json, Json.sorted, Json.sortedMembers, Value.sorted_json, List.mergeSort]

/-- The filters of a list keep their order, and only their members are sorted. -/
theorem sorted_jsonList (filters : List Filter) :
    (jsonList filters).sorted = .array (filters.map fun f => f.json.sorted) := by
  rw [jsonList, Json.sorted, Json.sortedItems_eq_map, List.map_map]
  rfl

/-! ### Reading filters -/

/-- What a filter is read as that was written as JSON, or the fault. -/
def reread (f : Filter) : Except Json.Fault Filter := do
  pure { f with compareTo := ← f.compareTo.reread }

theorem reads_expectVariant (c : Constraint) (depth : Nat) :
    Json.Reads (Json.expectVariant depth (Constraint.all.map fun c => (c.spelling, c)))
      (Json.string c.spelling).text (.ok c) := by
  rw [Json.text]
  exact Json.reads_expectVariant (by cases c <;> rfl) depth

/-- The members of a filter are read in the order of their names. -/
theorem fills_record (f : Filter) (depth : Nat) :
    Json.Fills (record.member (depth + 1)) record.start
      [("compareTo", f.compareTo.json), ("constraint", .string f.constraint.spelling),
        ("field", .string f.field)]
      (do pure ⟨some f.field, some f.constraint, some (← f.compareTo.reread)⟩) := by
  have compareTo : Json.Reads (record.member (depth + 1) record.start "compareTo")
      (':' :: f.compareTo.json.text) (do pure ⟨none, none, some (← f.compareTo.reread)⟩) := by
    apply Json.Record.reads_member rfl rfl
    exact (f.compareTo.reads_reader depth).bind fun v rest => rfl
  -- the value comes first, as the members are sorted: its fault is that of the filter
  cases value : f.compareTo.reread with
  | error fault =>
    rw [value] at compareTo
    exact .fault compareTo
  | ok v =>
    rw [value] at compareTo
    have constraint : Json.Reads (record.member (depth + 1) ⟨none, none, some v⟩ "constraint")
        (':' :: (Json.string f.constraint.spelling).text) (.ok ⟨none, some f.constraint, some v⟩) := by
      apply Json.Record.reads_member rfl rfl
      exact (reads_expectVariant f.constraint (depth + 1)).then_pure fun c =>
        (⟨none, some c, some v⟩ : Draft)
    have field : Json.Reads (record.member (depth + 1) ⟨none, some f.constraint, some v⟩ "field")
        (':' :: (Json.string f.field).text) (.ok ⟨some f.field, some f.constraint, some v⟩) := by
      apply Json.Record.reads_member rfl rfl
      exact (Json.reads_expectString "a string" f.field).then_pure fun s =>
        (⟨some s, some f.constraint, some v⟩ : Draft)
    exact .cons compareTo (.cons constraint (.cons field (.nil _)))

theorem reads_reader (f : Filter) (depth : Nat) :
    Json.Reads (reader (depth + 2)) f.json.sorted.text f.reread := by
  have read := Json.Record.reads_reader (f.fills_record depth)
  rw [← sorted_json] at read
  have whole : f.reread =
      (do pure ⟨some f.field, some f.constraint, some (← f.compareTo.reread)⟩ :
        Except Json.Fault Draft) >>= Draft.finish := by
    rw [reread]
    cases f.compareTo.reread <;> rfl
  rw [whole]
  apply read.bind
  intro draft rest
  cases draft.finish <;> rfl

/-- A list of filters that is written is read filter by filter; the first fault counts. -/
theorem parseList_render (filters : List Filter) :
    parseList (jsonList filters).sorted.render = filters.mapM reread := by
  apply Json.whole_eq_of_reads
  rw [sorted_jsonList]
  have each (f : Filter) :
      Json.StartsItem f.json.sorted.text ∧ Json.Reads (reader 126) f.json.sorted.text f.reread := by
    refine ⟨?_, f.reads_reader 124⟩
    rw [sorted_json]
    exact ⟨'\x7b', _, rfl, by decide, by decide⟩
  exact Json.reads_list fun f _ => each f

/-- A filter comes back if its value survives, as its field and constraint always do. -/
theorem agrees_reread_iff {f : Filter} (h : f.compareTo.IsRegular) :
    (∃ g, f.reread = .ok g ∧ g.agrees f = true) ↔ f.compareTo.SurvivesJson := by
  rw [← Value.agrees_reread_iff h]
  constructor
  · rintro ⟨g, read, same⟩
    obtain ⟨w, value, rest⟩ := bind_eq_ok.1 read
    obtain rfl := Except.ok.inj rest
    exact ⟨w, value, by simpa [agrees] using same⟩
  · rintro ⟨w, value, same⟩
    exact ⟨{ f with compareTo := w }, bind_eq_ok.2 ⟨w, value, rfl⟩, by simpa [agrees] using same⟩

end Filter

end FilterLang
