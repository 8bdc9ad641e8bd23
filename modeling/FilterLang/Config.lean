import FilterLang.Json.Reader
import FilterLang.Constraint
import FilterLang.Folder

namespace FilterLang

/-!
# Config — the configuration document

A configuration names a schema document and bans constraints beyond the usual ones:
`{"schema_path":…,"blacklist":[…],"use_default_blacklist":…,"log_level":…}`, of which only the
first is required.

* `Config.ofText` — the configuration that a text holds, its schema path resolved against the
  directory of the configuration.
* `Config.effectiveBlacklist` — all that it bans.
-/

/-- A configuration. -/
structure Config where
  /-- Where the schema document is. -/
  schemaPath : String
  /-- Spellings of constraints that are banned. -/
  blacklist : List String
  /-- Whether the usual blacklist applies too. -/
  useDefaultBlacklist : Bool
  logLevel : String
deriving DecidableEq, Repr

namespace Config

/-- The known log levels. -/
def logLevels : List String := ["trace", "debug", "info", "warn", "error"]

/-- The document of a configuration. -/
def json (config : Config) : Json :=
  .object [("schema_path", .string config.schemaPath),
    ("blacklist", .array (config.blacklist.map .string)),
    ("use_default_blacklist", .bool config.useDefaultBlacklist),
    ("log_level", .string config.logLevel)]

/-! ### Reading -/

/-- What has been read of a configuration. -/
structure Draft where
  schemaPath : Option String
  blacklist : Option (List String)
  useDefaultBlacklist : Option Bool
  logLevel : Option String

/-- The members of a configuration. -/
def record : Json.Record Draft where
  name := "Config"
  start := ⟨none, none, none, none⟩
  slots := [
    { name := "schema_path", optional := false, isFilled := (·.schemaPath.isSome)
      fill := fun _ draft => do
        pure { draft with schemaPath := some (← Json.expectString "path string") } },
    { name := "blacklist", optional := true, isFilled := (·.blacklist.isSome)
      fill := fun depth draft => do
        let entries ← Json.list depth fun _ => Json.expectString "a string"
        pure { draft with blacklist := some entries } },
    { name := "use_default_blacklist", optional := true
      isFilled := (·.useDefaultBlacklist.isSome)
      fill := fun _ draft => do
        pure { draft with useDefaultBlacklist := some (← Json.expectBool) } },
    { name := "log_level", optional := true, isFilled := (·.logLevel.isSome)
      fill := fun _ draft => do
        pure { draft with logLevel := some (← Json.expectString "a string") } }]

/-- The configuration that a draft makes: no constraint is banned but the usual ones, and the log
level is `warn`, unless it says otherwise. -/
def Draft.finish (draft : Draft) : Except Json.Fault Config := do
  let schemaPath ← Json.required "schema_path" draft.schemaPath
  pure ⟨schemaPath, draft.blacklist.getD [], draft.useDefaultBlacklist.getD true,
    draft.logLevel.getD "warn"⟩

/-- Reads a configuration. -/
def reader (depth : Nat) : Json.Reader Config := do
  (← record.reader depth).finish

/-- The configuration that a text holds, as it is written there. -/
def parse (text : String) : Except Json.Fault Config := Json.whole reader text

/-! ### Rules -/

/-- Why there is no usable configuration. -/
inductive Fault where
  /-- The file cannot be read. -/
  | unreadable (fault : ReadFault)
  /-- The text is no document of a configuration. -/
  | invalidJson (fault : Json.Fault)
  | emptySchemaPath
  | unknownLogLevel (level : String)
  /-- A banned constraint is none. -/
  | unknownConstraint (spelling : String)
deriving Repr

/-- What is said of a fault. -/
def Fault.message : Fault → String
  | unreadable fault => s!"Failed to read config: {fault.message}"
  | invalidJson fault => s!"Invalid config JSON: {fault.message}"
  | emptySchemaPath => "schema_path must not be empty"
  | unknownLogLevel level =>
    let known := ", ".intercalate logLevels
    s!"Invalid log_level: '{level}'. Expected one of {known}."
  | unknownConstraint spelling =>
    s!"Invalid blacklist entry: {Constraint.unknownMessage spelling}"

/-- The blacklist with the constraints that `spellings` name. -/
def banAll : List String → Blacklist → Except Fault Blacklist
  | [], blacklist => .ok blacklist
  | spelling :: rest, blacklist =>
    match Constraint.ofSpelling? spelling with
    | some constraint => banAll rest (blacklist.ban constraint)
    | none => .error (.unknownConstraint spelling)

/-- All that a configuration bans. -/
def effectiveBlacklist (config : Config) : Except Fault Blacklist :=
  banAll config.blacklist (if config.useDefaultBlacklist then .builtin else .empty)

/-- The configuration with a relative schema path taken from the directory of its own path. -/
def resolved (config : Config) (path : String) : Config :=
  match Path.parent? path with
  | some directory => { config with schemaPath := Path.join directory config.schemaPath }
  | none => config

/-- Checks the rules that a resolved configuration has to keep. -/
def check (config : Config) : Except Fault Unit := do
  if config.schemaPath = "" then throw .emptySchemaPath
  if config.logLevel ∉ logLevels then throw (.unknownLogLevel config.logLevel)
  let _ ← config.effectiveBlacklist

/-- The configuration that the text of the file at `path` holds. -/
def ofText (path text : String) : Except Fault Config := do
  let config ← (parse text).mapError .invalidJson
  let config := config.resolved path
  config.check
  pure config

end Config

end FilterLang
