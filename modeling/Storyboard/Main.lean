import Storyboard.Regression
/-!
The command line: runs the regression suite and prints its report.
-/

open Storyboard

/-- The settings that the environment gives. -/
def readSettings : IO (Settings Float) := do
  let given ← Settings.names.mapM fun name => do
    return (name, ← IO.getEnv (Settings.environmentName name))
  return Settings.read fun name => (given.find? (·.1 = name)).bind (·.2)

def main (args : List String) : IO UInt32 := do
  let settings ← readSettings
  match Regression.command settings Regression.suite args with
  | .error fault =>
    IO.eprintln fault.message
    return 1
  | .ok result =>
    IO.print result.output
    if let some (path, text) := result.file then IO.FS.writeFile path text
    return result.code.toUInt32
