import Toolbench.Rehearsal.CommandLine

/-!
# The command line

The tool or the daemon is not started by the command line itself: what it prints is read from the
standard input, and it is taken to have ended well.
-/

namespace Toolbench.Main

/-- What is printed when words name no task. -/
def usage : String :=
  "Usage: toolbench [--config FILE] build [--mode MODE] [--project-dir DIR] SUBCOMMAND [ARGS]...\n"
    ++ "       toolbench [--config FILE] complete FILE LINE COLUMN\n"
    ++ "       toolbench [--config FILE] definition FILE LINE COLUMN"

/-- What stands at a path. -/
def contentAt (path : Path) : IO FileContent := do
  try
    let content ← IO.FS.readBinFile path.text
    pure (.bytes content.toList)
  catch
    | .permissionDenied .. => pure (.absent .permissionDenied)
    | .inappropriateType .. => pure .directory
    | _ => pure (.absent .notFound)

/-- The rest of an input. -/
partial def readRest (input : IO.FS.Stream) (before : String) : IO String := do
  let line ← input.getLine
  if line.isEmpty then pure before else readRest input (before ++ line)

/-- The variables of the environment that settings usually refer to. -/
def environment : IO Environment := do
  let entries ← ["HOME", "PATH"].mapM fun name => do
    pure ((← IO.getEnv name).map fun value => (name, value))
  pure (entries.filterMap id)

/-- Every command can be started, and runs where it is to run. -/
def anyHost (environment : Environment) : Rehearsal.Host where
  environment := environment
  start := fun command => .ok (((command.directory.map Path.pieces).getD []).filter (· ≠ ""))

/-- Run a task, and return its exit code. -/
def runTask (options : Options) : IO UInt32 := do
  let environment ← environment
  let home : Path := ⟨(environment.value? "HOME").getD "/"⟩
  let directory : Path := ⟨(← IO.currentDir).toString⟩
  let content ← contentAt (options.configFile home)
  let output ← readRest (← IO.getStdin) ""
  let seen := Rehearsal.Performance.run (anyHost environment) home directory content
    options ⟨output, "", .exits 0⟩
  for text in seen.report.err do
    IO.eprintln text
  for text in seen.report.out do
    IO.println text
  pure (UInt32.ofNat seen.report.exit)

end Toolbench.Main

/-- Read the words of the command line and run the task that they name. -/
def main (arguments : List String) : IO UInt32 := do
  match Toolbench.Options.parse arguments with
  | .ok options => Toolbench.Main.runTask options
  | .error .help =>
      IO.println Toolbench.Main.usage
      pure 0
  | .error .misuse =>
      IO.eprintln Toolbench.Main.usage
      pure 2
