import FilterLang.Text.Lines

namespace FilterLang

/-!
# Folder — paths and files

* `Path.parent?`, `Path.join` — a path without its last component, and a path below another.
* `Path.fault?` — what is wrong with a path in itself.
* `ReadFault` — why a file cannot be read.
* `Folder` — files and directories below a working directory; `Folder.read` finds the file of a
  path.
-/

namespace Path

/-- The components of a path, with an empty one before a slash at its start. -/
def pieces (path : String) : List (List Char) := path.toList.splitOn '/'

/-- Whether a path starts at the root. -/
def isAbsolute (path : String) : Bool := path.toList.head? = some '/'

/-- Components without those at the end that lead nowhere. -/
def trimEnd (components : List (List Char)) : List (List Char) :=
  (components.reverse.dropWhile fun c => c = [] || c = ['.']).reverse

/-- A path without its last component. A `.` is a component only at the start of a path; the root
and the empty path have none. -/
def parent? (path : String) : Option String :=
  let (lead, body) := match pieces path with
    | [] :: body => if isAbsolute path then ([[]], body) else ([], [] :: body)
    | ['.'] :: body => ([['.']], body)
    | body => ([], body)
  match trimEnd body with
  | [] => if lead = [['.']] then some "" else none
  | components =>
    let above := trimEnd components.dropLast
    if lead = [[]] ∧ above = [] then some "/"
    else some (String.ofList (['/'].intercalate (lead ++ above)))

/-- A path below a directory; an absolute path stays as it is. -/
def join (directory path : String) : String :=
  if isAbsolute path ∨ directory = "" then path
  else if directory.toList.getLast? = some '/' then directory ++ path
  else directory ++ "/" ++ path

example : parent? "filterq.json" = some "" ∧ parent? "./filterq.json" = some "." ∧
    parent? "/a" = some "/" ∧ parent? "a//b/./" = some "a" ∧ parent? "" = none := by decide +kernel

end Path

/-- Why a file cannot be read as text. -/
inductive ReadFault where
  | notFound
  /-- A file stands where a path needs a directory. -/
  | notADirectory
  | isADirectory
  /-- The path, or a name in it, has too many bytes. -/
  | nameTooLong
  /-- The path holds a NUL character. -/
  | nulInPath
  | notText
  /-- Another fault, with its text. -/
  | other (reason : String)
deriving DecidableEq, Repr

/-- What is said of a file that cannot be read. -/
def ReadFault.message : ReadFault → String
  | notFound => "No such file or directory (os error 2)"
  | notADirectory => "Not a directory (os error 20)"
  | isADirectory => "Is a directory (os error 21)"
  | nameTooLong => "File name too long (os error 36)"
  | nulInPath => "file name contained an unexpected NUL byte"
  | notText => "stream did not contain valid UTF-8"
  | other reason => reason

/-- How many bytes a name between two slashes may have. -/
def maxNameBytes : Nat := 255

/-- How many bytes a path may have. -/
def maxPathBytes : Nat := 4095

/-- What is wrong with a path before any of its names is looked up. -/
def Path.fault? (path : String) : Option ReadFault :=
  if path.toList.contains '\x00' then some .nulInPath
  else if path = "" then some .notFound
  else if maxPathBytes < path.utf8ByteSize then some .nameTooLong
  else none

/-- The text that bytes encode in UTF-8. -/
def decodeText (bytes : ByteArray) : Except ReadFault String :=
  match String.fromUTF8? bytes with
  | some text => .ok text
  | none => .error .notText

/-- Files and directories below a working directory. -/
structure Folder where
  /-- Paths from the working directory; a directory has no content. The first entry of a path
  counts. -/
  entries : List (List String × Option ByteArray)

namespace Folder

/-- Nothing but the working directory. -/
def empty : Folder := ⟨[([], none)]⟩

/-- What stands at a path from the working directory: nothing, a directory or a file. -/
def at? (folder : Folder) (path : List String) : Option (Option ByteArray) :=
  folder.entries.lookup path

/-- Puts a file at a path, in the place of what was there, or a directory if nothing is there. -/
def put (folder : Folder) (path : List String) (content : Option ByteArray) : Folder :=
  if content.isNone ∧ (folder.at? path).isSome then folder
  else ⟨(path, content) :: folder.entries⟩

/-- Adds a file or a directory below `here`, with the directories on its way. -/
def addBelow (content : Option ByteArray) : List (List Char) → List String → Folder → Folder
  | [], _, folder => folder
  | piece :: rest, here, folder =>
    if piece = ['.', '.'] then addBelow content rest here.dropLast folder
    else
      let path := here ++ [String.ofList piece]
      addBelow content rest path (folder.put path (if rest = [] then content else none))

/-- Adds a file, or a directory if there is no content. A later file takes the place of an earlier
one. -/
def add (folder : Folder) (path : String) (content : Option ByteArray) : Folder :=
  addBelow content ((Path.pieces path).filter fun piece => piece ≠ [] ∧ piece ≠ ['.']) [] folder

/-- What a path leads to from `here`, a path from the working directory; outside of it, there are
directories and nothing with a name. -/
def walk (folder : Folder) : (here : Option (List String)) → List (List Char) →
    Except ReadFault ByteArray
  | here, [] =>
    match here.map folder.at? with
    | none | some (some none) => .error .isADirectory
    | some (some (some bytes)) => .ok bytes
    | some none => .error .notFound
  | here, piece :: rest =>
    match here.map folder.at? with
    | some none => .error .notFound
    | some (some (some _)) => .error .notADirectory
    | none =>
      if piece = [] ∨ piece = ['.'] ∨ piece = ['.', '.'] then walk folder none rest
      else if maxNameBytes < (String.ofList piece).utf8ByteSize then .error .nameTooLong
      else .error .notFound
    | some (some none) =>
      if piece = [] ∨ piece = ['.'] then walk folder here rest
      else if piece = ['.', '.'] then
        walk folder (here.bind fun names => if names = [] then none else some names.dropLast) rest
      else if maxNameBytes < (String.ofList piece).utf8ByteSize then .error .nameTooLong
      else walk folder (here.map (· ++ [String.ofList piece])) rest

/-- The content of the file at a path. -/
def read (folder : Folder) (path : String) : Except ReadFault ByteArray :=
  match Path.fault? path with
  | some fault => .error fault
  | none => walk folder (if Path.isAbsolute path then none else some []) (Path.pieces path)

end Folder

end FilterLang
