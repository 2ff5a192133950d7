import Toolbench.Build.Arguments
import Toolbench.Job.Command
import Toolbench.Settings.Basic
import Toolbench.Settings.Expansion

/-!
# Requests for a build

A build is asked for from some directory. The tool runs in the project directory when one is set,
and in that directory otherwise.
-/

namespace Toolbench.Build

/-- A request to run the build tool. -/
structure Invocation where
  subcommand : String
  arguments : List String
  /-- Where the build is asked for. -/
  directory : Path
deriving DecidableEq, Repr

/-- The command that an invocation runs, given the settings and the environment. -/
def commandFor (settings : BuildSettings) (env : String → Option String)
    (invocation : Invocation) : Command where
  program := settings.tool
  arguments := arguments invocation.subcommand invocation.arguments
    settings.outputMode.isStructured
    (manifestOverride? settings.projectDirectory invocation.directory)
  directory := some (settings.projectDirectory.getD invocation.directory)
  env := Settings.expandAll env settings.env

end Toolbench.Build
