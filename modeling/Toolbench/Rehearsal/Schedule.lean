import Toolbench.Job.Machine
import Toolbench.Rehearsal.Host
import Toolbench.Text.Utf8

/-!
# Schedules

In a rehearsal a program does what a script says, and each step of the script is complete, with
all that follows from it, before the next begins. A schedule is the list of what the parties of a
job then do, in the order in which they do it: what is written is read and handed on, and when the
program ends the job is settled. A schedule may name actions that turn out to be impossible; those
are left out.
-/

namespace Toolbench.Rehearsal

open Job (Stream)

/-- What a program was told about its surroundings. -/
structure Standin where
  ignoresInterrupt : Bool
  /-- A background process that ignores interrupts keeps the outputs open. -/
  holds : Bool
deriving DecidableEq, Repr

/-- A program that was told nothing. -/
def Standin.fresh : Standin :=
  ⟨false, false⟩

/-- What a program is told to do, other than to end. -/
inductive Cue where
  | write (stream : Stream) (text : String)
  /-- Print a variable. -/
  | printVariable (name : String)
  /-- Print the working directory. -/
  | printDirectory
  | ignoreInterrupt
  /-- Start the background process. -/
  | hold
deriving DecidableEq, Repr

namespace Cue

/-- What a program writes on a cue, when it runs a command. -/
def written (host : Host) (command : Command) : Cue → Option (Stream × List Char)
  | write stream text => some (stream, text.toList)
  | printVariable name => some (.out, (host.variableText command name).toList)
  | printDirectory =>
      match host.start command with
      | .ok place => some (.out, (Place.text place ++ "\n").toList)
      | .error _ => none
  | ignoreInterrupt => none
  | hold => none

/-- What a program is like after a cue. -/
def prepare (standin : Standin) : Cue → Standin
  | ignoreInterrupt => { standin with ignoresInterrupt := true }
  | hold => { standin with holds := true }
  | _ => standin

end Cue

/-- The exit code that a system keeps of the one that a program gives: its last eight bits. -/
def keptCode (code : Int) : Int :=
  code % 256

namespace Schedule

/-- The number of the process in a rehearsal. -/
def pid : Nat :=
  1

/-- A job is executed. -/
def execute (host : Host) (command : Command) : List Job.Action :=
  [.execute, .announce, .spawn ((host.start command).map fun _ => pid), .recordPid,
    .takePipes none]

/-- The program writes, and the lines that it completes are handed on. -/
def write (stream : Stream) (text : List Char) : List Job.Action :=
  let bytes := Text.Utf8.encode text
  .write stream bytes
    :: List.replicate (bytes.length / Job.readSize + 1) (.read stream Job.readSize)
    ++ List.replicate (bytes.count LineBuffer.feedByte) .dispatch

/-- The program does something on a cue. -/
def perform (host : Host) (command : Command) (cue : Cue) : List Job.Action :=
  match cue.written host command with
  | some (stream, text) => write stream text
  | none => []

/-- The program has ended and nobody holds the outputs; the job is settled. Each output may have
one more line. -/
def windUp : List Job.Action :=
  [.reap none, .sweep, .close .out, .close .err, .readEnd .out, .readEnd .err, .dispatch,
    .dispatch, .drain, .settle, .reportExit, .killReturns]

/-- The program ends. When a background process holds the outputs, the job either stays as it is
(`waits`) or gives up on the outputs. -/
def exit (standin : Standin) (code : Option Int) (waits : Bool) : List Job.Action :=
  let ends : Job.Action := .childEnds (code.map keptCode)
  if !standin.holds then ends :: windUp
  else if waits then [ends, .reap none, .sweep]
  else [ends, .reap none, .sweep, .giveUp, .settle, .reportExit]

/-- The job was asked to end. A program that does not end from the interrupt, or a background
process that holds the outputs after the program has ended, is killed after the grace. -/
def kill (standin : Standin) (job : Job) : List Job.Action :=
  let ended := match job.child with
    | .ended _ => true
    | _ => false
  let forced : List Job.Action :=
    if standin.ignoresInterrupt || ended then [.graceOver, .force] else []
  .signal (.ok .signalled) :: forced ++ .childEnds none :: windUp

end Schedule

end Toolbench.Rehearsal
