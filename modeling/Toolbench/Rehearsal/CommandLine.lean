import Toolbench.Cli.Report
import Toolbench.Cli.Task
import Toolbench.Rehearsal.BuildScript
import Toolbench.Rehearsal.DaemonScript

/-!
# Rehearsing the command line

A rehearsal of a whole task: the program that the command line runs does what a performance says.
A build tool writes its two outputs and ends. A daemon takes one request, writes its output, and
ends at the end of its input.
-/

namespace Toolbench.Rehearsal

/-- How a build tool ends. -/
inductive Ending where
  | exits (code : Int)
  /-- It is killed. -/
  | dies
  /-- The command line is interrupted while the tool runs. -/
  | interrupted
deriving DecidableEq, Repr

/-- What the program does that the command line runs. -/
structure Performance where
  out : String
  err : String
  ending : Ending
deriving DecidableEq, Repr

/-- What is seen of a run of the command line. -/
structure Appearance where
  report : CliReport
  /-- The arguments of the program that was run, and where it ran. -/
  ran : Option (List String × Place)
  /-- The request that a daemon was brought. -/
  request : Option String
deriving DecidableEq, Repr

namespace Performance

/-- The step of a script in which a build tool ends. -/
def endStep : Ending → BuildStep
  | .exits code => .exit (some code) false
  | .dies => .exit none false
  | .interrupted => .stop

/-- Do the steps of a script. Returns what the last one comes to. -/
def follow (host : Host) : BuildAnswer → StagedBuilds → List BuildStep →
    BuildAnswer × StagedBuilds × List Build.Output
  | answer, staged, [] => (answer, staged, [])
  | _, staged, step :: steps =>
      let (answer, _, staged, outputs) := staged.step host step
      let (answer, staged, later) := follow host answer staged steps
      (answer, staged, outputs ++ later)

/-- What is printed at the end of a build. -/
def ofAnswer (answer : BuildAnswer) (snapshot : Snapshot) : CliReport :=
  match answer with
  | .result (.busy commandLine) => .ofFailure (.ofBusy commandLine)
  | .result (.finished status) =>
      { CliReport.ofSnapshot snapshot with exit := CliReport.exitOf status }
  | _ => { CliReport.ofSnapshot snapshot with exit := CliReport.failure }

/-- The program that a command runs, if it can be run. -/
def programOf (host : Host) (command : Command) : Option (List String × Place) :=
  match host.start command with
  | .ok place => some (command.arguments, place)
  | .error _ => none

/-- Run a build. -/
def build (host : Host) (settings : BuildSettings) (invocation : Build.Invocation)
    (performance : Performance) : Appearance :=
  let staged := StagedBuilds.ofSettings settings host.environment
  let ran := programOf host (staged.manager.commandFor invocation)
  let (answer, _, staged, first) := staged.step host (.run invocation)
  let (answer, staged, later) := match answer with
    | .running =>
        follow host answer staged [.cue (.write .out performance.out),
          .cue (.write .err performance.err), endStep performance.ending]
    | _ => (answer, staged, [])
  ⟨CliReport.ofOutputs (first ++ later) ++ ofAnswer answer staged.manager.snapshot, ran, none⟩

/-- What is printed of what a caller gets. -/
def ofReply : Reply → CliReport
  | .lines batch => ⟨CliReport.success, batch, []⟩
  | .found results => .ofMatches results
  | .foundFirst result => .ofDefinition result
  | .refused error => .ofFailure (.ofQuery error)

/-- Ask the daemon about a place. -/
def query (host : Host) (settings : DaemonSettings) (request : Request)
    (performance : Performance) : Appearance :=
  let staged := StagedDaemon.ofSettings settings
  let ran := programOf host (staged.command host)
  match staged.step host .start with
  | (.started (.error error), _, _) => ⟨.ofFailure (.ofStart error), ran, none⟩
  | (_, staged, _) =>
      let (_, staged, asked) := staged.step host (.ask 0 (.question request))
      let line := staged.nextLine?
      let (_, staged, answered) := staged.step host (.cue (.write .out performance.out))
      let (_, staged, _) := staged.step host (.drainThenExit 0)
      let (_, staged, stopped) := staged.step host .stop
      match staged.replies (asked ++ answered ++ stopped) with
      | (_, reply) :: _ => ⟨ofReply reply, ran, line⟩
      | [] => ⟨⟨CliReport.failure, [], []⟩, ran, line⟩

/-- Run a task from a directory, given what stands at the file of its settings. -/
def run (host : Host) (home directory : Path) (content : FileContent) (options : Options)
    (performance : Performance) : Appearance :=
  match options.settings home content with
  | .error error => ⟨.ofFailure (.ofLoadError error), none, none⟩
  | .ok settings =>
      match options.task with
      | .build mode projectDirectory subcommand arguments =>
          build host (settings.build.withOptions mode projectDirectory)
            ⟨subcommand, arguments, directory⟩ performance
      | .query question file line column =>
          query host settings.daemon ⟨question, file.absoluteIn directory, line, column, none⟩
            performance

end Performance

end Toolbench.Rehearsal
