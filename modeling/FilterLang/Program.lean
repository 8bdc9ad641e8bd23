import FilterLang.Service

namespace FilterLang

/-!
# Program — the command line

* `Command` — the commands.
* `Invocation.ofArgs?` — what a list of arguments asks for: the version, or a command with the path
  of its configuration.
* `World` — files and standard input, in any monad.
* `Program.run` — runs the program: its output, its complaints and its exit code.
-/

/-- The commands. -/
inductive Command where
  | compile
  | render
  | suggest
  | catalog
  | defaultFilter
deriving DecidableEq, Repr

/-- What the program is asked for. -/
inductive Invocation where
  | version
  /-- A command, and the path of its configuration. -/
  | command (command : Command) (config : String)
deriving DecidableEq, Repr

namespace Invocation

/-- The names of the commands. -/
def commandNames : List (String × Command) :=
  [("compile", .compile), ("render", .render), ("suggest", .suggest), ("catalog", .catalog),
    ("default-filter", .defaultFilter)]

/-- Where the configuration is, unless an option says otherwise. -/
def defaultConfig : String := "./filterq.json"

/-- The text after `word` in an argument that starts with it. -/
def after? (word arg : String) : Option String :=
  if word.toList.isPrefixOf arg.toList then
    some (String.ofList (arg.toList.drop word.toList.length))
  else none

/-- The value of an option: it is not empty. -/
def optionValue? (text : String) : Option String := if text = "" then none else some text

/-- Whether an argument is taken for an option: it starts with a dash and is more than that. -/
def isOption (arg : String) : Bool := arg.toList.head? = some '-' && arg ≠ "-"

/-- The path that the options after a command give, `given` being the one read so far. It may be
given once, as one argument or as two. -/
def config? : List String → (given : Option String) → Option String
  | [], given => some (given.getD defaultConfig)
  | ["--"], given => some (given.getD defaultConfig)
  | "--config" :: value :: rest, none =>
    if isOption value then none else (optionValue? value).bind fun path => config? rest (some path)
  | arg :: rest, none =>
    (after? "--config=" arg).bind optionValue? |>.bind fun path => config? rest (some path)
  | _ :: _, some _ => none

/-- What arguments ask for; nothing, if they are wrong. -/
def ofArgs? : List String → Option Invocation
  | [] => none
  | arg :: rest =>
    if arg = "--version" ∨ (after? "-V" arg).isSome then some .version
    else do
      let command ← commandNames.lookup arg
      some (.command command (← config? rest none))

end Invocation

/-- Files and standard input. -/
structure World (m : Type → Type) where
  readFile : String → m (Except ReadFault ByteArray)
  readInput : m ByteArray

namespace Program

/-- What a run of the program leaves behind. -/
structure Outcome where
  exit : UInt8
  output : String
  /-- What it complains of, on the error channel. -/
  complaint : Option String

/-- The answer to arguments that are wrong. -/
def misused : Outcome := ⟨2, "", none⟩

/-- The version of the program. -/
def versionText : String := "filterq 0.1.0"

/-- The answer of a run that ended well. -/
def success (text : String) : Outcome := ⟨0, text ++ "\n", some ""⟩

/-- A document that says that all is well. -/
def response (data : Json) : String :=
  (Json.object [("status", .string "ok"), ("data", data)]).sorted.render

/-- The answer of a run that failed. Rejected rows are written to the output too. -/
def failure (failure : Failure) : Outcome :=
  let output := match failure with
    | .compileFailed diagnostics =>
      (Json.object [("status", .string "error"), ("code", .string failure.code),
        ("message", .string failure.message),
        ("diagnostics", Diagnostic.jsonList diagnostics)]).sorted.render ++ "\n"
    | _ => ""
  ⟨1, output, some failure.display⟩

/-- The configuration at a path, from the content of its file. -/
def loadConfig (path : String) (content : Except ReadFault ByteArray) : Except Failure Config :=
  match content.bind decodeText with
  | .error fault => .error (.config (.unreadable fault))
  | .ok text => (Config.ofText path text).mapError .config

/-- The schema at a path, from the content of its file. -/
def loadSchema (path : String) (content : Except ReadFault ByteArray) : Except Failure Schema :=
  match content.bind decodeText with
  | .error fault => .error (.schema (.unreadable path fault))
  | .ok text => (Schema.load path text).mapError .schema

/-- Runs a command that takes input. -/
def answerText (command : Command) (text : String) (schema : Schema) (blacklist : Blacklist) :
    Except Failure String :=
  match command with
  | .compile => (Service.compile text schema blacklist).map response
  | .render => Service.render text schema blacklist
  | .suggest => .ok (response (Service.suggest text schema blacklist))
  | .catalog => .ok (response (Service.catalog schema blacklist))
  | .defaultFilter => .ok (response (Service.defaultFilter schema blacklist))

/-- Whether a command reads the input. -/
def takesInput : Command → Bool
  | .compile | .render | .suggest => true
  | .catalog | .defaultFilter => false

variable {m : Type → Type} [Monad m]

/-- Runs a command: the configuration is loaded first, then the schema, and the input is read only
if the command takes any. -/
def runCommand (world : World m) (command : Command) (path : String) :
    ExceptT Failure m String := do
  let config ← loadConfig path (← world.readFile path)
  let schema ← loadSchema config.schemaPath (← world.readFile config.schemaPath)
  let blacklist ← config.effectiveBlacklist.mapError Failure.config
  let text ← if takesInput command then do
      let bytes ← world.readInput
      (decodeText bytes).mapError Failure.input
    else pure ""
  answerText command text schema blacklist

/-- Runs the program. -/
def run (world : World m) (args : List String) : m Outcome := do
  match Invocation.ofArgs? args with
  | none => pure misused
  | some .version => pure (success versionText)
  | some (.command command path) =>
    match ← (runCommand world command path).run with
    | .ok text => pure (success text)
    | .error fault => pure (failure fault)

end Program

end FilterLang
