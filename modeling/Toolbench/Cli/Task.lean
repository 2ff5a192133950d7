import Toolbench.Cli.Options
import Toolbench.Settings.Load

/-!
# The settings of a task

Settings that are named on the command line must be there and usable. Those of the home directory
are ignored when they are not. What the command line says of a build goes before its settings.
-/

namespace Toolbench

namespace Options

/-- The file that the settings are loaded from. -/
def configFile (options : Options) (home : Path) : Path :=
  options.config.getD (Settings.pathIn home)

/-- The settings of a task, given what stands at `configFile`. -/
def settings (options : Options) (home : Path) (content : FileContent) :
    Except Settings.LoadError Settings :=
  match options.config with
  | some path => Settings.loadFrom path content
  | none =>
      match Settings.load home content with
      | .ok (some settings) => .ok settings
      | _ => .ok .standard

end Options

/-- The settings of a build with what the command line says. -/
def BuildSettings.withOptions (settings : BuildSettings) (mode : Option OutputMode)
    (projectDirectory : Option Path) : BuildSettings :=
  { settings with
    outputMode := mode.getD settings.outputMode
    projectDirectory := projectDirectory.or settings.projectDirectory }

end Toolbench
