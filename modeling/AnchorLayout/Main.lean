import AnchorLayout.CommandLine.Run

/-!
# The program

Reads the file that the arguments name, runs the command line on its text and
shows what comes of it. Nothing is decided here.
-/

namespace AnchorLayout.CommandLine

/-- The text of a file, or the failure to read it. -/
def readScene (path : String) : IO (Except Failure String) := do
  try
    return .ok (← IO.FS.readFile path)
  catch e =>
    match e with
    | .inappropriateType _ 20 _ => return .error (.notADirectory path)
    | .inappropriateType _ _ _ => return .error (.isDirectory path)
    | _ => return .error (.fileNotFound path)

/-- The text that a command line works on. -/
def readArgument (args : List String) : IO (Except Failure String) :=
  match parse args with
  | .ok a => readScene a.path
  | .error _ => pure (.error (.fileNotFound ""))

end AnchorLayout.CommandLine

/-- Runs the command line of the program. -/
def main (args : List String) : IO UInt32 := do
  let text ← AnchorLayout.CommandLine.readArgument args
  let outcome := AnchorLayout.CommandLine.run args fun _ => text
  IO.print outcome.stdout
  IO.eprint outcome.stderr
  match outcome.status with
  | .ok n => return n.toUInt32
  | .error e =>
    IO.eprintln (e.category.name ++ ": " ++ e.message)
    return 1
