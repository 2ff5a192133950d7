import Toolbench.Build.Status
import Toolbench.Diagnostic.Reader
import Toolbench.Job.Machine

/-!
# What a build run makes of its job

An observer turns what a job tells it into reports: events to pass on, and diagnostics to publish.
Every line of output is passed on as it is, except that structured lines are replaced by the text
they hold for people. In the human mode the lines of each output are kept apart until a blank line
or the end, and then read as one text, so that lines of the other output never come between the
lines of a block.
-/

namespace Toolbench.Build

open Job (Stream Callback)

/-- What a manager tells about its builds. -/
inductive Event where
  /-- A run has begun; what was known before is gone. -/
  | started (commandLine : String)
  | output (line : String) (stream : Stream)
  | finished (status : Status)
  /-- The tool is not there; told once by a manager. -/
  | toolMissing (program : String)
deriving DecidableEq, Repr

/-- What an observer asks for. -/
inductive Report where
  /-- Drop all diagnostics. -/
  | clear
  | emit (event : Event)
  | publish (diagnostics : List Diagnostic)
deriving DecidableEq, Repr

/-- The observer of a run's job. -/
structure Observer where
  mode : OutputMode
  /-- Where the paths of diagnostics start. -/
  directory : Path
  commandLine : String
  /-- Lines of the standard output that were not read for diagnostics yet. -/
  pendingOut : List String
  /-- Lines of the standard error that were not read for diagnostics yet. -/
  pendingErr : List String
deriving DecidableEq, Repr

namespace Observer

/-- An observer before the job begins. -/
def fresh (mode : OutputMode) (directory : Path) (commandLine : String) : Observer :=
  ⟨mode, directory, commandLine, [], []⟩

/-- The lines of an output that were not read for diagnostics yet. -/
def pending (observer : Observer) : Stream → List String
  | .out => observer.pendingOut
  | .err => observer.pendingErr

/-- The observer with other lines of an output to be read. -/
def setPending (observer : Observer) (stream : Stream) (lines : List String) : Observer :=
  match stream with
  | .out => { observer with pendingOut := lines }
  | .err => { observer with pendingErr := lines }

/-- The text of lines, each with a line feed after it. -/
def textOf (lines : List String) : String :=
  String.ofList (Text.unlines (lines.map String.toList))

/-- Read the pending lines of an output. -/
def flush (observer : Observer) (stream : Stream) : Observer × List Report :=
  match observer.pending stream with
  | [] => (observer, [])
  | lines =>
      (observer.setPending stream [], [.publish (observer.mode.outputDiagnostics (textOf lines))])

/-- What is made of a structured line. -/
def structuredReports (line : String) (stream : Stream) : List Report :=
  match ToolMessage.ofLine? line.toList with
  | some (.compiler diagnostic rendered) =>
      .publish diagnostic.toList
        :: (Text.stringLines (rendered.getD "")).map fun text => .emit (.output text stream)
  | some (.buildFinished _) => []
  | some (.other _) => []
  | none => [.emit (.output line stream)]

/-- What is made of a line. -/
def line (observer : Observer) (stream : Stream) (text : String) : Observer × List Report :=
  match observer.mode with
  | .json => (observer, structuredReports text stream)
  | .legacy =>
      (observer, [.emit (.output text stream), .publish (OutputMode.legacy.lineDiagnostics text)])
  | .human =>
      if Text.isBlank text.toList then
        let (observer, reports) := observer.flush stream
        (observer, .emit (.output text stream) :: reports)
      else
        (observer.setPending stream (observer.pending stream ++ [text]),
          [.emit (.output text stream)])

/-- What is made of something that a job tells. -/
def observe (observer : Observer) : Callback → Observer × List Report
  | .started => (observer, [.clear, .emit (.started observer.commandLine)])
  | .line stream text => observer.line stream text
  | .exited _ =>
      let (observer, reports) := observer.flush .out
      let (observer, later) := observer.flush .err
      (observer, reports ++ later)

/-- What is made of several things that a job tells, in order. -/
def observeAll : Observer → List Callback → Observer × List Report
  | observer, [] => (observer, [])
  | observer, callback :: callbacks =>
      let (observer, reports) := observer.observe callback
      let (observer, later) := observer.observeAll callbacks
      (observer, reports ++ later)

/-- The diagnostics that reports offer, in order. -/
def offered (reports : List Report) : List Diagnostic :=
  reports.flatMap fun
    | .publish diagnostics => diagnostics
    | _ => []

end Observer

end Toolbench.Build
