import Toolbench.Text.Decimal

/-!
# How a build ends

A tool that a signal ends has no exit code.
-/

namespace Toolbench.Build

/-- How a build ended. -/
inductive Status where
  | success
  /-- The tool ended with a code other than zero, or was ended by a signal. -/
  | failed (code : Option Int)
  /-- The build was stopped on request. -/
  | interrupted
  /-- The tool is not there. -/
  | toolMissing (program : String)
  /-- The tool could not be started for another reason. -/
  | spawnFailed (message : String)
deriving DecidableEq, Repr

/-- The decimal text of an exit code. -/
def codeText (code : Int) : String :=
  if code < 0 then "-" ++ String.ofList (Text.Decimal.write code.natAbs)
  else String.ofList (Text.Decimal.write code.natAbs)

namespace Status

/-- The build did what was asked. -/
def isSuccess : Status → Bool
  | .success => true
  | _ => false

/-- What is said about the end of a build. -/
def describe : Status → String
  | .success => "finished successfully"
  | .failed (some code) => "failed with exit code " ++ codeText code
  | .failed none => "terminated by signal"
  | .interrupted => "interrupted"
  | .toolMissing program => "`" ++ program ++ "` is not installed or not on PATH"
  | .spawnFailed message => message

end Status

end Toolbench.Build
