import Toolbench.Path

/-!
# Commands

A program with its arguments, and where and with which variables it is to run.
-/

namespace Toolbench

/-- What to run. -/
structure Command where
  program : String
  arguments : List String
  /-- The working directory, unless it is the current one. -/
  directory : Option Path
  /-- Variables that are added to the environment. -/
  env : List (String × String)
deriving DecidableEq, Repr

namespace Command

/-- The command that runs a program on its own. -/
def ofProgram (program : String) : Command :=
  ⟨program, [], none, []⟩

/-- The command with further arguments. -/
def withArguments (command : Command) (arguments : List String) : Command :=
  { command with arguments := command.arguments ++ arguments }

/-- The program and its arguments with spaces between them, for people to read. -/
def display (command : Command) : String :=
  " ".intercalate (command.program :: command.arguments)

end Command

end Toolbench
