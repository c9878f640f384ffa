import LocalizedQuery.CommandLine.Outcome

/-!
# The program

Reads the configuration file that a command names, carries out the command and prints what it says.
-/

namespace LocalizedQuery

/-- Why a file that is there cannot be read. -/
def reasonOf (error : IO.Error) : String :=
  match error with
  | .inappropriateType _ 21 _ => "Is a directory (os error 21)"
  | .permissionDenied _ 13 _ => "Permission denied (os error 13)"
  | error => toString error

/-- What is found at a path. -/
def readConfiguration (path : String) : IO FileContent := do
  try
    return .bytes (← IO.FS.readBinFile path)
  catch
    | .noFileOrDirectory .. => return .missing
    | error => return .unreadable (reasonOf error)

/-- Carries out a command line and gives the exit code. -/
def program (args : List String) : IO UInt32 := do
  let outcome ← match Command.ofArguments args with
    | .error error => pure (Outcome.ofUsageError error)
    | .ok command => do pure (command.run (← readConfiguration command.file))
  (← IO.getStdout).putStr outcome.stdout
  (← IO.getStderr).putStr outcome.stderr
  return outcome.exitCode

end LocalizedQuery

def main (args : List String) : IO UInt32 := LocalizedQuery.program args
