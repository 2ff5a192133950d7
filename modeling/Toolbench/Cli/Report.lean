import Toolbench.Build.Manager
import Toolbench.Daemon.Client
import Toolbench.Daemon.Match
import Toolbench.Settings.Load

/-!
# What the command line prints

A report is what a run of the command line prints on its two outputs, and its exit code. Output of
the tool goes to the output that it was written to, and what the command line says of itself to
the standard error.
-/

namespace Toolbench

/-- What a run of the command line comes to. Each text is printed with a line feed after it. -/
structure CliReport where
  exit : Nat
  out : List String
  err : List String
deriving DecidableEq, Repr

/-- What went wrong: the deed that failed, and the causes one behind the other. -/
structure CliFailure where
  deed : String
  causes : List String
deriving DecidableEq, Repr

namespace CliReport

/-- The exit code of a success. -/
def success : Nat :=
  0

/-- The exit code of a failure. -/
def failure : Nat :=
  1

/-- The exit code of words that name no task. -/
def misuse : Nat :=
  2

/-- The exit code of a build that was interrupted. -/
def interrupted : Nat :=
  130

/-- The exit code of a tool, when one byte can hold it. -/
def byteOr (code : Int) (otherwise : Nat) : Nat :=
  if 0 ≤ code ∧ code < 256 then code.toNat else otherwise

/-- The exit code of a build that ended. -/
def exitOf : Build.Status → Nat
  | .success => success
  | .failed (some code) => byteOr code failure
  | .interrupted => interrupted
  | _ => failure

/-- Print a text on the standard output. -/
def onOut (text : String) : CliReport :=
  ⟨success, [text], []⟩

/-- Print a text on the standard error. -/
def onErr (text : String) : CliReport :=
  ⟨success, [], [text]⟩

/-- Print one report after the other. The exit code is that of the second. -/
def append (first second : CliReport) : CliReport :=
  ⟨second.exit, first.out ++ second.out, first.err ++ second.err⟩

instance : Append CliReport := ⟨append⟩

/-- What is printed of an event. -/
def ofEvent : Build.Event → CliReport
  | .started commandLine => onErr ("> " ++ commandLine)
  | .output line .out => onOut line
  | .output line .err => onErr line
  | .finished status => onErr ("> build " ++ status.describe)
  | .toolMissing program =>
      onErr ("`" ++ program
        ++ "` was not found. Install it or set `build.tool` in ~/.anvil/config.toml.")

/-- What is printed of what a manager lets others see. -/
def ofOutputs (outputs : List Build.Output) : CliReport :=
  outputs.foldl (fun report output =>
    match output with
    | .event event => report ++ ofEvent event
    | .update _ => report) ⟨success, [], []⟩

/-- What is printed of the diagnostics at the end: nothing when there are none. -/
def ofSnapshot (snapshot : Snapshot) : CliReport :=
  if snapshot.isEmpty then ⟨success, [], []⟩
  else ⟨success, "" :: snapshot.diagnostics.map Diagnostic.display ++ [snapshot.status], []⟩

/-- What is printed of a match. -/
def matchText (found : Match) : String :=
  found.name ++ "\t" ++ found.kind ++ "\t" ++ found.path.text ++ ":"
    ++ Text.Decimal.wordText found.line ++ ":" ++ Text.Decimal.wordText found.column ++ "\t"
    ++ found.snippet.getD found.context

/-- What is printed of matches. -/
def ofMatches (found : List Match) : CliReport :=
  ⟨success, found.map matchText, []⟩

/-- What is printed of a definition. -/
def ofDefinition : Option Match → CliReport
  | some found => onOut (matchText found)
  | none => ⟨failure, [], ["No definition found"]⟩

/-- The text with something before each of its lines but the first. -/
def indentRest (margin text : String) : String :=
  ("\n" ++ margin).intercalate ((text.toList.splitOn '\n').map String.ofList)

/-- The causes of a failure, with numbers when there are several. -/
def causeTexts : List String → List String
  | [] => []
  | [cause] => ["", "Caused by:", "    " ++ indentRest "    " cause]
  | causes =>
      "" :: "Caused by:" :: causes.zipIdx.map fun (cause, index) =>
        "    " ++ String.ofList (Text.Decimal.write index) ++ ": " ++ indentRest "       " cause

/-- What is printed of a failure. -/
def ofFailure (failed : CliFailure) : CliReport :=
  ⟨failure, [], ("Error: " ++ failed.deed) :: causeTexts failed.causes⟩

end CliReport

namespace CliFailure

/-- Settings could not be loaded. -/
def ofLoadError (error : Settings.LoadError) : CliFailure :=
  ⟨"loading " ++ error.path.text, [error.message, error.causeMessage]⟩

/-- What an error of the client goes back to. -/
def causesOf : DaemonError → List String
  | .spawn _ cause => [cause.message]
  | _ => []

/-- The daemon could not be started. -/
def ofStart (error : DaemonError) : CliFailure :=
  ⟨"starting completion daemon", error.message :: causesOf error⟩

/-- The daemon could not be asked. -/
def ofQuery (error : DaemonError) : CliFailure :=
  ⟨error.message, causesOf error⟩

/-- A build was refused. -/
def ofBusy (commandLine : String) : CliFailure :=
  ⟨Build.busyMessage commandLine, []⟩

end CliFailure

end Toolbench
