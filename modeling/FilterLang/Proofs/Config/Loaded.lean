import Mathlib.Data.Set.List
import FilterLang.Program
import FilterLang.Proofs.Outcome

namespace FilterLang

/-!
# Config — which configurations are loaded

The rules of a configuration are checked once its schema path has been taken from the directory of its
file. So a path that is empty where it is written is not refused if this directory has a name: what
is checked is the directory with a slash behind it.

* `Path.beside` — a path as it is meant in the file at another path.
* `Config.banAll_eq_ok_iff` — banning constraints by their spellings, the step and the run.
* `Config.IsUsable` — the rules, said of a configuration as it is written.
* `Config.ofText_eq_ok_iff` — a text has a configuration if it is the document of a usable one.
* `Config.loadConfig_eq_ok_iff` — which files are loaded, and as which configuration.
-/

namespace Path

/-- A path that is written in the file at another one: a relative path starts at the directory of this
file, if it has one. -/
def beside (file path : String) : String :=
  if isAbsolute path then path
  else match parent? file with
    | some directory => join directory path
    | none => path

/-- An absolute path is not taken from anywhere. -/
theorem join_of_isAbsolute {path : String} (h : isAbsolute path = true) (directory : String) :
    join directory path = path := if_pos (.inl h)

/-- Only the empty path below an unnamed directory is empty. -/
theorem join_eq_empty_iff {directory path : String} :
    join directory path = "" ↔ directory = "" ∧ path = "" := by
  unfold join
  split
  next kept =>
    constructor
    · rintro rfl
      exact ⟨kept.resolve_left (by decide), rfl⟩
    · exact And.right
  next named =>
    have ne := (not_or.1 named).2
    split <;> simp [ne]

/-- A path is empty where it is meant if it is written so and the file has no named directory. -/
theorem beside_eq_empty_iff {file path : String} :
    beside file path = "" ↔
      path = "" ∧ ∀ directory, parent? file = some directory → directory = "" := by
  unfold beside
  split
  next absolute =>
    constructor
    · rintro rfl
      exact absurd absolute (by decide)
    · exact And.left
  next =>
    split
    next directory above => simp [above, join_eq_empty_iff, and_comm]
    next none => simp [none]

end Path

namespace Config

/-! ### The blacklist -/

/-- Constraints are banned if each spelling is the one of a constraint; these come after those that are
banned already, in their order. -/
theorem banAll_eq_ok_iff {spellings : List String} {start blacklist : Blacklist} :
    banAll spellings start = .ok blacklist ↔
      ∃ constraints : List Constraint, spellings = constraints.map (·.spelling) ∧
        blacklist = ⟨start.members ++ constraints⟩ := by
  -- Induction on the spellings, for every blacklist they are added to: one that names nothing
  -- stops the run there.
  induction spellings generalizing start with
  | nil => simp [banAll, eq_comm]
  | cons spelling spellings ih =>
    rw [banAll]
    cases named : Constraint.ofSpelling? spelling with
    | some constraint =>
      constructor
      · intro banned
        obtain ⟨constraints, rfl, rfl⟩ := ih.1 banned
        refine ⟨constraint :: constraints, ?_, by simp [Blacklist.ban]⟩
        rw [List.map_cons, ← Constraint.ofSpelling?_eq_some_iff.1 named]
      · rintro ⟨constraints, spelled, rfl⟩
        obtain ⟨first, rest, rfl, rfl, rfl⟩ := List.map_eq_cons_iff.1 spelled.symm
        obtain rfl : first = constraint := by simpa using named
        exact ih.2 ⟨rest, rfl, by simp [Blacklist.ban]⟩
    | none =>
      refine iff_of_false (by simp) ?_
      rintro ⟨constraints, spelled, -⟩
      obtain ⟨first, rest, rfl, rfl, rfl⟩ := List.map_eq_cons_iff.1 spelled.symm
      simp at named

/-- All that a configuration bans: what its spellings name comes after what is banned by default, if
this applies. -/
theorem effectiveBlacklist_eq_ok_iff {config : Config} {blacklist : Blacklist} :
    config.effectiveBlacklist = .ok blacklist ↔
      ∃ constraints : List Constraint, config.blacklist = constraints.map (·.spelling) ∧
        blacklist =
          ⟨(if config.useDefaultBlacklist then [.containsAll] else []) ++ constraints⟩ := by
  rw [effectiveBlacklist, banAll_eq_ok_iff]
  cases config.useDefaultBlacklist <;> rfl

/-- A configuration has a blacklist if each of its spellings is the one of a constraint. -/
theorem exists_effectiveBlacklist_iff {config : Config} :
    (∃ blacklist, config.effectiveBlacklist = .ok blacklist) ↔
      ∀ spelling ∈ config.blacklist, ∃ constraint : Constraint, spelling = constraint.spelling := by
  simp only [effectiveBlacklist_eq_ok_iff]
  constructor
  · rintro ⟨-, constraints, spelled, -⟩ spelling hs
    obtain ⟨constraint, -, rfl⟩ := List.mem_map.1 (spelled ▸ hs)
    exact ⟨constraint, rfl⟩
  · intro known
    -- each spelling is in the range of `spelling`, hence the list in the range of its map
    have spelled : config.blacklist ∈ Set.range (List.map Constraint.spelling) := by
      rw [Set.range_list_map]
      exact fun spelling hs => (known spelling hs).imp fun _ => Eq.symm
    obtain ⟨constraints, same⟩ := spelled
    exact ⟨_, constraints, same.symm, rfl⟩

/-! ### The rules -/

/-- The rules that are checked: a schema path, a known log level and known spellings. -/
theorem check_eq_ok_iff {config : Config} :
    config.check = .ok () ↔
      config.schemaPath ≠ "" ∧ config.logLevel ∈ logLevels ∧
        ∃ blacklist, config.effectiveBlacklist = .ok blacklist := by
  unfold check
  -- the rules are checked in this order, and the first that is broken ends the check
  by_cases empty : config.schemaPath = ""
  · rw [if_pos empty]
    exact iff_of_false nofun fun h => h.1 empty
  rw [if_neg empty, and_iff_right empty]
  by_cases known : config.logLevel ∈ logLevels
  · rw [if_neg (not_not.2 known), and_iff_right known]
    cases config.effectiveBlacklist with
    | error fault => exact iff_of_false nofun nofun
    | ok blacklist => exact iff_of_true rfl ⟨blacklist, rfl⟩
  · rw [if_pos known]
    exact iff_of_false nofun fun h => known h.1

/-- The schema path of a configuration is taken from the directory of its file, and nothing else is
changed. -/
theorem resolved_eq (config : Config) (path : String) :
    config.resolved path = { config with schemaPath := Path.beside path config.schemaPath } := by
  unfold resolved Path.beside
  cases Path.parent? path with
  | none => simp
  | some directory =>
    simp only
    split
    next absolute => rw [Path.join_of_isAbsolute absolute]
    next => rfl

/-- A configuration keeps the rules as it is written in the file at a path: its log level is a known one
and each spelling in its blacklist is the one of a constraint. Its schema path can be empty only if
the directory of the file has a name. -/
structure IsUsable (config : Config) (path : String) : Prop where
  located : config.schemaPath ≠ "" ∨
    ∃ directory, Path.parent? path = some directory ∧ directory ≠ ""
  level_known : config.logLevel ∈ logLevels
  spellings_known : ∀ spelling ∈ config.blacklist,
    ∃ constraint : Constraint, spelling = constraint.spelling

/-- After the schema path has been taken from the directory of the file, the rules are those for
what is written. -/
theorem check_resolved_eq_ok_iff {config : Config} {path : String} :
    (config.resolved path).check = .ok () ↔ config.IsUsable path := by
  rw [check_eq_ok_iff, resolved_eq, exists_effectiveBlacklist_iff, ne_eq, Path.beside_eq_empty_iff,
    not_and_or]
  push Not
  exact ⟨fun ⟨located, level, known⟩ => ⟨located, level, known⟩,
    fun usable => ⟨usable.located, usable.level_known, usable.spellings_known⟩⟩

/-- A text has a configuration if it is the document of a usable one. -/
theorem ofText_eq_ok_iff {path text : String} {config : Config} :
    ofText path text = .ok config ↔
      ∃ written, parse text = .ok written ∧ written.IsUsable path ∧
        config = { written with schemaPath := Path.beside path written.schemaPath } := by
  rw [ofText, bind_eq_ok]
  cases parse text with
  | error fault => simp
  | ok written =>
    -- the check sees the path already joined, which is the condition `IsUsable` states
    simp only [mapError_ok, Except.ok.injEq, exists_eq_left', ← resolved_eq,
      ← check_resolved_eq_ok_iff, bind_eq_ok]
    constructor
    · rintro ⟨⟨⟩, checked, same⟩
      exact ⟨checked, (Except.ok.inj same).symm⟩
    · rintro ⟨checked, rfl⟩
      exact ⟨(), checked, rfl⟩

/-- A configuration of a text has a blacklist. -/
theorem exists_blacklist_of_ofText {path text : String} {config : Config}
    (h : ofText path text = .ok config) : ∃ blacklist, config.effectiveBlacklist = .ok blacklist := by
  obtain ⟨written, -, usable, rfl⟩ := ofText_eq_ok_iff.1 h
  exact exists_effectiveBlacklist_iff.2 usable.spellings_known

/-- What is loaded from a file is the configuration of its text. -/
theorem loaded_iff_exists_text {path : String} {content : Except ReadFault ByteArray}
    {config : Config} :
    Program.loadConfig path content = .ok config ↔
      ∃ text, content.bind decodeText = .ok text ∧ ofText path text = .ok config := by
  unfold Program.loadConfig
  cases content.bind decodeText with
  | error fault => simp
  | ok text =>
    simp only [Except.ok.injEq, exists_eq_left']
    cases ofText path text <;> simp

/-- **Loading.** A file is loaded if and only if it can be read, its text is the document of a
configuration and this configuration is usable where it is written. What is loaded differs from the
document in a relative schema path only, which is taken from the directory of the file; and each of its
spellings bans a constraint. -/
theorem loadConfig_eq_ok_iff (path : String) (content : Except ReadFault ByteArray) :
    (∀ config, Program.loadConfig path content = .ok config ↔
      ∃ text written, content.bind decodeText = .ok text ∧ parse text = .ok written ∧
        written.IsUsable path ∧
        config = { written with schemaPath := Path.beside path written.schemaPath }) ∧
    ∀ config, Program.loadConfig path content = .ok config →
      ∃ blacklist, config.effectiveBlacklist = .ok blacklist := by
  have loads (config : Config) : Program.loadConfig path content = .ok config ↔
      ∃ text written, content.bind decodeText = .ok text ∧ parse text = .ok written ∧
        written.IsUsable path ∧
        config = { written with schemaPath := Path.beside path written.schemaPath } := by
    simp only [loaded_iff_exists_text, ofText_eq_ok_iff, exists_and_left]
  refine ⟨loads, fun config loaded => ?_⟩
  obtain ⟨text, -, document⟩ := loaded_iff_exists_text.1 loaded
  exact exists_blacklist_of_ofText document

/-- The path of the schema starts at a directory below another one, and a constraint is banned twice. An
empty path is taken for this directory. -/
theorem loadConfig_eq_ok_iff_nested :
    let path := "conf/./deep/app.json"
    let content : Except ReadFault ByteArray := .ok ("\x7b\"log_level\":\"debug\"," ++
      "\"blacklist\":[\"near\",\"near\"],\"schema_path\":\"../s.json\",\"other\":[1e999]\x7d").toUTF8
    let config : Config := ⟨"conf/./deep/../s.json", ["near", "near"], true, "debug"⟩
    let none : Except ReadFault ByteArray := .ok "[\"\"]".toUTF8
    Program.loadConfig path content = .ok config ∧
      (∃ text written, content.bind decodeText = .ok text ∧ parse text = .ok written ∧
        written.IsUsable path ∧
        config = { written with schemaPath := Path.beside path written.schemaPath }) ∧
      (∃ blacklist, config.effectiveBlacklist = .ok blacklist) ∧
      Program.loadConfig path none = .ok ⟨"conf/./deep/", [], true, "warn"⟩ := by
  intro path content config none
  have loaded : Program.loadConfig path content = .ok config :=
    toOption_eq_some_iff.1 (by decide +kernel)
  have read : none.bind decodeText = .ok "[\"\"]" := toOption_eq_some_iff.1 (by decide +kernel)
  have parsed : parse "[\"\"]" = .ok ⟨"", [], true, "warn"⟩ :=
    toOption_eq_some_iff.1 (by decide +kernel)
  obtain ⟨loads, banned⟩ := loadConfig_eq_ok_iff path content
  obtain ⟨loads', -⟩ := loadConfig_eq_ok_iff path none
  refine ⟨loaded, (loads config).1 loaded, banned config loaded, (loads' _).2 ?_⟩
  refine ⟨_, _, read, parsed, ⟨.inr ⟨"conf/./deep", by decide +kernel, by decide⟩, by decide, ?_⟩, ?_⟩
  · simp
  · decide +kernel

/-- In a directory with a name, the schema path can be empty. -/
theorem load_of_empty_schemaPath :
    let path := "conf/filterq.json"
    let content := "\x7b\"schema_path\":\"\"\x7d".toUTF8
    Program.loadConfig path (.ok content) = .ok ⟨"conf/", [], true, "warn"⟩ ∧
      ¬((∃ config, Program.loadConfig path (.ok content) = .ok config) ↔
        ∃ text written, decodeText content = .ok text ∧ parse text = .ok written ∧
          written.schemaPath ≠ "" ∧ written.logLevel ∈ logLevels ∧
          ∀ spelling ∈ written.blacklist, ∃ constraint : Constraint,
            spelling = constraint.spelling) := by
  intro path content
  have loaded : Program.loadConfig path (.ok content) = .ok ⟨"conf/", [], true, "warn"⟩ :=
    toOption_eq_some_iff.1 (by decide +kernel)
  have read : decodeText content = .ok "\x7b\"schema_path\":\"\"\x7d" :=
    toOption_eq_some_iff.1 (by decide +kernel)
  have parsed : parse "\x7b\"schema_path\":\"\"\x7d" = .ok ⟨"", [], true, "warn"⟩ :=
    toOption_eq_some_iff.1 (by decide +kernel)
  refine ⟨loaded, fun claimed => ?_⟩
  obtain ⟨text, written, decoded, document, named, -⟩ := claimed.1 ⟨_, loaded⟩
  -- what is read can only be this text, and its schema path is empty
  cases read.symm.trans decoded
  cases parsed.symm.trans document
  exact named rfl

-- Next to the configuration, it cannot.
example :
    (match Program.loadConfig "filterq.json" (.ok "\x7b\"schema_path\":\"\"\x7d".toUTF8) with
      | .ok _ => none
      | .error failure => some failure.display) =
      some "FILTERQ_CLI_CONFIG_ERROR: schema_path must not be empty" := by
  decide +kernel

end Config

end FilterLang
