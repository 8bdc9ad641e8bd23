import FilterLang.Program

namespace FilterLang

/-!
# Main — the program in its surroundings

Connects `Program.run` to files, standard input, standard output and the exit code.
-/

/-- Whether the operating system means its error `number`: some codes come with their sign
turned. -/
def isCode (number code : UInt32) : Bool := code = number || code = 0 - number

/-- Why the operating system did not give a file's content. -/
def readFault (e : IO.Error) : ReadFault :=
  match e with
  | .noFileOrDirectory _ _ _ => .notFound
  | .inappropriateType _ code _ =>
    if isCode 20 code then .notADirectory
    else if isCode 21 code then .isADirectory
    else .other (toString e)
  | .invalidArgument _ code _ => if isCode 36 code then .nameTooLong else .other (toString e)
  | e => .other (toString e)

/-- All bytes of a stream, after those in `done`. -/
partial def readAll (stream : IO.FS.Stream) (done : ByteArray) : IO ByteArray := do
  let bytes ← stream.read 65536
  if bytes.isEmpty then pure done else readAll stream (done ++ bytes)

/-- The files and the input of the process. -/
def world : World IO where
  readFile path := do
    match Path.fault? path with
    | some fault => pure (.error fault)
    | none =>
      try
        pure (.ok (← IO.FS.readBinFile path))
      catch e => pure (.error (readFault e))
  readInput := do readAll (← IO.getStdin) .empty

end FilterLang

/-- Runs the program with the arguments of the process. -/
def main (args : List String) : IO UInt32 := do
  let outcome ← FilterLang.Program.run FilterLang.world args
  IO.print outcome.output
  match outcome.complaint with
  | some text => if text ≠ "" then IO.eprintln text
  | none => IO.eprintln "invalid arguments"
  pure outcome.exit.toUInt32
