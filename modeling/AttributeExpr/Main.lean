import AttributeExpr.CommandLine.Run
import AttributeExpr.Config.Location
/-!
The program: it prints the parameters of a request as JSON.
-/
namespace AttributeExpr.CommandLine

def usage : String :=
  "usage: [--config FILE] [-v] item|update|query --schema KEYS PARTITION [SORT] [options]"

/-- What is found at a path. A path through something that is no directory leads nowhere. -/
def readContent (path : String) : IO FileContent := do
  try
    return .text (← IO.FS.readFile path)
  catch
    | .noFileOrDirectory .. => return .missing
    | .inappropriateType _ 21 _ => return .unreadable "[Errno 21] Is a directory"
    | .inappropriateType .. => return .missing
    | .permissionDenied .. => return .unreadable "[Errno 13] Permission denied"
    | error => return .unreadable (toString error)

/-- The configuration file that is named, or else the one in the usual place. -/
def findConfig (named : Option String) : IO ConfigFile := do
  let base ← IO.getEnv "DYNEIN_CONFIG_DIR"
  let home := (← IO.getEnv "HOME").getD "/"
  match (named.map Config.normalPath).or (Config.location? base home) with
  | some path => return ⟨path, ← readContent path⟩
  | none => throw (IO.userError "Could not determine home directory.")

end AttributeExpr.CommandLine

open AttributeExpr CommandLine in
def main (arguments : List String) : IO UInt32 := do
  match Invocation.parse arguments with
  | .error stop =>
    IO.eprintln usage
    return stop.status.toUInt32
  | .ok invocation =>
    let config ← if invocation.command.readsConfig then findConfig invocation.configFile
      else pure ⟨"", .missing⟩
    match invocation.command.run config with
    | .ok outcome =>
      IO.print outcome.output
      IO.eprint outcome.errors
      return outcome.status.toUInt32
    | .error failure =>
      IO.eprintln failure.message
      return 1
