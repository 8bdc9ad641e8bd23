import FilterLang.Proofs.Catalog.Defaults
import FilterLang.Proofs.Config.Loaded
import FilterLang.Proofs.Editor.Removal
import FilterLang.Proofs.Service.Compile

namespace FilterLang

/-!
# Config — what a configuration bans

Query text, documents and suggestions are all judged by a catalog, and no catalog lists a banned
constraint. So a constraint cannot be used at all once it is banned: by a spelling anywhere in a
configuration, or by default.

* `Config.Bans` — a configuration bans a constraint, said of what is written in it.
* `Blacklist.Excludes` — a constraint is of no use, whatever is asked for; `Blacklist.excludes_of_bans`
  says so of each banned one.
* `Config.bans_iff` — the blacklist of a configuration bans what is named in it, and nothing else.
* `Config.excludes_of_loadConfig` — so a configuration excludes what it names and leaves everything
  else.
-/

/-! ### A banned constraint -/

namespace Blacklist

/-- A constraint is of no use with a blacklist, whatever the schema and the filters in place are: it is
not listed, proposed or suggested, no text has a filter with it, and no list of filters with it is
rendered. -/
structure Excludes (blacklist : Blacklist) (constraint : Constraint) : Prop where
  not_listed : ∀ schema inPlace, ∀ entry ∈ (Scope.catalog ⟨schema, inPlace, blacklist⟩).entries,
    constraint ∉ entry.2
  not_proposed : ∀ schema inPlace field,
    Scope.defaultFilter? ⟨schema, inPlace, blacklist⟩ ≠ some (field, constraint)
  not_compiled : ∀ schema inPlace text filters,
    Scope.compile ⟨schema, inPlace, blacklist⟩ text = .ok filters →
      ∀ f ∈ filters, f.constraint ≠ constraint
  not_rendered : ∀ schema input filters, Filter.parseList input = .ok filters →
    (∃ f ∈ filters, f.constraint = constraint) →
      ∃ fault, Service.render input schema blacklist = .error (.invalidInput fault)
  /-- After the first token of the last line, its spelling is not suggested. -/
  not_suggested : ∀ schema inPlace (text : String),
    2 ≤ ((lastLine text.toList).2.splitOn ' ').length →
      constraint.spelling ∉ Scope.suggest ⟨schema, inPlace, blacklist⟩ text

end Blacklist

namespace Catalog

variable {schema : Schema} {used : List String} {blacklist : Blacklist} {constraint : Constraint}

/-- No entry of a catalog lists a banned constraint. -/
theorem not_mem_of_bans (banned : blacklist.bans constraint = true)
    {entry : String × List Constraint}
    (h : entry ∈ (Catalog.of schema used blacklist).entries) : constraint ∉ entry.2 := by
  obtain ⟨field, constraints⟩ := entry
  obtain ⟨type, -, -, -, rfl⟩ := mem_entries_of_iff.1 h
  simp [banned]

end Catalog

namespace Service

variable {schema : Schema} {blacklist : Blacklist}

/-- A text that is not rendered is refused as invalid input. -/
theorem exists_invalidInput {input : String}
    (h : ∀ query, render input schema blacklist ≠ .ok query) :
    ∃ fault, render input schema blacklist = .error (.invalidInput fault) := by
  simp only [render] at h ⊢
  split
  · exact ⟨_, rfl⟩
  next filters read =>
    split
    next compiled found =>
      split
      next same => exact absurd (by simp [read, found, same]) (h (Filter.query filters))
      next => exact ⟨_, rfl⟩
    next => exact ⟨_, rfl⟩

end Service

namespace Scope

variable {scope : Scope} {constraint : Constraint}

/-- What could stand in place of a second token, or of a later one, is the spelling of a constraint that
is listed. -/
theorem exists_of_mem_candidates {catalog : Catalog} {tokens : List (List Char)} {text : String}
    (many : 2 ≤ tokens.length) (h : text ∈ candidates catalog tokens) :
    ∃ field constraints, catalog.get? field = some constraints ∧
      ∃ constraint ∈ constraints, text = constraint.spelling := by
  unfold candidates at h
  split at h
  -- of the shapes a line can have, only a field with a second token offers spellings
  next => simp at many
  next field _ =>
    split at h
    next constraints listed =>
      obtain ⟨constraint, hc, rfl⟩ := List.mem_map.1 h
      exact ⟨_, constraints, listed, constraint, hc, rfl⟩
    next => exact absurd h List.not_mem_nil
  next => exact absurd h List.not_mem_nil

end Scope

/-- No use is left for a banned constraint. -/
theorem Blacklist.excludes_of_bans {blacklist : Blacklist} {constraint : Constraint}
    (banned : blacklist.bans constraint = true) : blacklist.Excludes constraint where
  not_listed schema inPlace entry := Catalog.not_mem_of_bans banned
  not_proposed schema inPlace field proposed := by
    obtain ⟨constraints, first⟩ :=
      (@Scope.defaultFilter?_eq_some_iff _ ⟨field, constraint, .bool true⟩).1 proposed
    exact Catalog.not_mem_of_bans banned (first ▸ List.mem_cons_self) List.mem_cons_self
  not_compiled schema inPlace text filters compiled f hf := by
    rintro rfl
    obtain ⟨type, row⟩ := (Scope.hasQuery_of_compile_eq_ok compiled).1.rows f hf
    exact Bool.false_ne_true (row.allowed.symm.trans banned)
  not_rendered schema input filters read := by
    rintro ⟨f, hf, rfl⟩
    refine Service.exists_invalidInput fun query rendered => ?_
    obtain ⟨read', same, -, writable⟩ := Service.of_render_eq_ok rendered
    cases read.symm.trans same
    obtain ⟨type, row⟩ := writable.rows f hf
    exact Bool.false_ne_true (row.allowed.symm.trans banned)
  not_suggested schema inPlace text many suggested := by
    unfold Scope.suggest at suggested
    -- after the first token, only what the catalog lists is a candidate
    obtain ⟨candidate, -⟩ := List.mem_filter.1 suggested
    rw [← length_splitOn_dropReturn] at many
    obtain ⟨field, constraints, listed, other, hc, same⟩ :=
      Scope.exists_of_mem_candidates many candidate
    obtain rfl := Constraint.spelling_injective same
    exact Catalog.not_mem_of_bans banned (Catalog.mem_entries_iff.2 listed) hc

/-! ### What is written in a configuration -/

namespace Config

variable {config : Config}

/-- A configuration bans a constraint: its spelling stands anywhere in the list, or it is banned by
default and the configuration does not say otherwise. -/
def Bans (config : Config) (constraint : Constraint) : Prop :=
  constraint.spelling ∈ config.blacklist ∨
    config.useDefaultBlacklist = true ∧ constraint = .containsAll

/-- The blacklist of a configuration bans what the configuration names, and nothing else. -/
theorem bans_iff {blacklist : Blacklist} (h : config.effectiveBlacklist = .ok blacklist)
    (constraint : Constraint) : blacklist.bans constraint = true ↔ config.Bans constraint := by
  obtain ⟨constraints, spelled, rfl⟩ := effectiveBlacklist_eq_ok_iff.1 h
  have named : constraint.spelling ∈ config.blacklist ↔ constraint ∈ constraints := by
    rw [spelled, List.mem_map_of_injective fun _ _ => Constraint.spelling_injective]
  rw [Bans, named]
  cases config.useDefaultBlacklist <;> simp [Blacklist.bans, or_comm]

/-- **The blacklist of a configuration.** A constraint that a loaded configuration bans is of no use,
whatever is asked for. Any other constraint is listed for each field that it applies to, as long as no
filter is in place. -/
theorem excludes_of_loadConfig {path : String} {content : Except ReadFault ByteArray}
    (loaded : Program.loadConfig path content = .ok config) :
    ∃ blacklist, config.effectiveBlacklist = .ok blacklist ∧ ∀ constraint,
      (config.Bans constraint → blacklist.Excludes constraint) ∧
      (¬config.Bans constraint → ∀ schema field type, Schema.get? schema field = some type →
        constraint ∈ Constraint.forKind type.kind →
          ∃ constraints, (field, constraints) ∈ (Scope.catalog ⟨schema, [], blacklist⟩).entries ∧
            constraint ∈ constraints) := by
  obtain ⟨text, -, document⟩ := loaded_iff_exists_text.1 loaded
  -- a loaded document passed the check, so its spellings all resolve to constraints
  obtain ⟨blacklist, effective⟩ := exists_blacklist_of_ofText document
  refine ⟨blacklist, effective, fun constraint => ?_⟩
  rw [← bans_iff effective constraint]
  refine ⟨Blacklist.excludes_of_bans, fun allowed schema field type declared applies => ?_⟩
  rw [Bool.not_eq_true] at allowed
  refine ⟨_, Catalog.mem_entries_of_iff.2
    ⟨type, declared, List.not_mem_nil, ⟨constraint, applies, allowed⟩, rfl⟩, ?_⟩
  simp [applies, allowed]

/-- One constraint is named twice and another one is banned by default. A third one is left. -/
theorem excludes_of_loadConfig_repeated :
    let path := "conf/filterq.json"
    let content := ("\x7b\"schema_path\":\"s.json\"," ++
      "\"blacklist\":[\"near\",\"startsWith\",\"near\"]\x7d").toUTF8
    let config : Config := ⟨"conf/s.json", ["near", "startsWith", "near"], true, "warn"⟩
    let schema := Schema.empty.withField "name" (.of .string)
    Program.loadConfig path (.ok content) = .ok config ∧
      ∃ blacklist, config.effectiveBlacklist = .ok blacklist ∧
        blacklist.Excludes .near ∧ blacklist.Excludes .containsAll ∧
        ∃ constraints, ("name", constraints) ∈ (Scope.catalog ⟨schema, [], blacklist⟩).entries ∧
          .endsWith ∈ constraints := by
  intro path content config schema
  have loaded : Program.loadConfig path (.ok content) = .ok config :=
    toOption_eq_some_iff.1 (by decide +kernel)
  obtain ⟨blacklist, effective, judged⟩ := excludes_of_loadConfig loaded
  refine ⟨loaded, blacklist, effective, (judged .near).1 (.inl (by decide)),
    (judged .containsAll).1 (.inr ⟨rfl, rfl⟩), ?_⟩
  have left : ¬config.Bans .endsWith := by
    rintro (named | ⟨-, same⟩)
    · exact absurd named (by decide)
    · cases same
  exact (judged .endsWith).2 left schema "name" (.of .string) rfl (by decide)

end Config

end FilterLang
