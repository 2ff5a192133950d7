import Toolbench.Path

/-!
# Arguments of the build tool

The subcommand comes first, then the path of the manifest when the project lies elsewhere, then
the request for structured output, and last what the user gave. Only subcommands that report
diagnostics are asked for structured output.
-/

namespace Toolbench.Build

/-- The subcommands that report diagnostics. -/
def diagnosticSubcommands : List String :=
  ["build", "check", "clippy", "test", "bench", "run", "rustc", "doc"]

/-- The subcommand reports diagnostics. -/
def reportsDiagnostics (subcommand : String) : Bool :=
  diagnosticSubcommands.contains subcommand

/-- All arguments of the build tool. -/
def arguments (subcommand : String) (userArguments : List String) (structured : Bool)
    (manifest : Option Path) : List String :=
  let manifestArguments := manifest.elim [] fun path => ["--manifest-path", path.text]
  let formatArguments :=
    if structured && reportsDiagnostics subcommand then ["--message-format", "json"] else []
  subcommand :: manifestArguments ++ formatArguments ++ userArguments

/-- The manifest to name when the project does not lie where the build was asked for. -/
def manifestOverride? (project : Option Path) (invocation : Path) : Option Path := do
  let project ← project
  let directory := project.normalize
  if directory.same invocation.normalize then none else some (directory.join ⟨"Cargo.toml"⟩)

end Toolbench.Build
