import RwxScene.Inspector.Log
import RwxScene.Inspector.Run

/-!
# The inspector as a program

Looks at the world once, for all that a run with these arguments may ask for, and then runs.
-/

namespace RwxScene.Inspector

/-- What a path leads to, as the system says. -/
def readPath (path : String) : IO FileResult := do
  try
    return .ok (← IO.FS.readBinFile path)
  catch e =>
    match e with
    | .noFileOrDirectory .. => return .error .missing
    | .inappropriateType _ 21 _ => return .error .isFolder
    | .inappropriateType .. => return .error .notFolder
    | .permissionDenied .. => return .error .notAllowed
    | .invalidArgument _ 22 _ => return .error .nulByte
    | .invalidArgument .. => return .error .tooLong
    | e => return .error (.other (toString e))

/-- The variables that a run may ask for. -/
def variableNames : List String :=
  ["RWX_CONFIG", "RWX_HANDEDNESS", "RWX_OPPOSING_DOT", "RWX_INVERTED_MASKS", "RWX_JSON"]

/-- The part of the world that a run with these arguments may ask for. -/
def look (arguments : List String) : IO World := do
  let environment ← variableNames.filterMapM fun name ↦ do
    return (← IO.getEnv name).map (name, ·)
  let paths := defaultConfig :: (environment.lookup "RWX_CONFIG").toList ++ arguments
  let files ← paths.mapM fun path ↦ do return (path, ← readPath path)
  return {
    environment := fun name ↦ environment.lookup name
    files := fun path ↦ (files.lookup path).getD (.error .missing) }

end RwxScene.Inspector

open RwxScene.Inspector in
/-- Prints the report of a run. -/
def main (arguments : List String) : IO UInt32 := do
  let outcome := run (← look arguments) arguments
  IO.print outcome.output
  outcome.errors.forM fun message ↦ IO.eprint (String.ofList (Log.written message))
  return outcome.exitCode.toUInt32
