import Toolbench.Diagnostic.OutputMode
import Toolbench.Path

/-!
# Settings

What a user can set: how builds are run, and which completion daemon is kept running. Whatever is
not set has a default. Times are in milliseconds.
-/

namespace Toolbench

/-- What happens when a build is asked for while one runs. -/
inductive BusyPolicy where
  /-- Interrupt the running build, then start the new one. -/
  | stop
  /-- Drop the new request. -/
  | ignore
  /-- Refuse, so that the caller can decide. -/
  | ask
deriving DecidableEq, Repr

namespace BusyPolicy

/-- The name of a policy. -/
def label : BusyPolicy → String
  | .stop => "stop"
  | .ignore => "ignore"
  | .ask => "ask"

/-- The policy with this exact name. -/
def ofName? : String → Option BusyPolicy
  | "stop" => some .stop
  | "ignore" => some .ignore
  | "ask" => some .ask
  | _ => none

theorem ofName?_label (policy : BusyPolicy) : ofName? policy.label = some policy := by
  cases policy <;> rfl

end BusyPolicy

/-- How builds are run. -/
structure BuildSettings where
  /-- The build tool. -/
  tool : String
  /-- Where the manifest of the project is, unless a build is asked for there. -/
  projectDirectory : Option Path
  outputMode : OutputMode
  onBusy : BusyPolicy
  /-- Variables of the build's environment, by name; values may refer to other variables. -/
  env : List (String × String)
  /-- How long a build may take to end after an interrupt. -/
  interruptGrace : Nat
deriving DecidableEq, Repr

/-- The build settings when nothing is set. -/
def BuildSettings.standard : BuildSettings :=
  ⟨"cargo", none, .standard, .ignore, [], 2000⟩

/-- Which completion daemon is kept running, and how. -/
structure DaemonSettings where
  program : String
  arguments : List String
  directory : Option Path
  /-- Variables of the daemon's environment, by name; values may refer to other variables. -/
  env : List (String × String)
  /-- How long after a crash the daemon is started again. -/
  restartDelay : Nat
  /-- How long the daemon may take to end when it is stopped. -/
  stopGrace : Nat
deriving DecidableEq, Repr

/-- The daemon settings when nothing is set. -/
def DaemonSettings.standard : DaemonSettings :=
  ⟨"racer", ["daemon"], none, [], 3000, 2000⟩

/-- All settings. -/
structure Settings where
  build : BuildSettings
  daemon : DaemonSettings
deriving DecidableEq, Repr

/-- The settings when nothing is set. -/
def Settings.standard : Settings :=
  ⟨.standard, .standard⟩

end Toolbench
