import Toolbench.System

/-!
# Jobs

A job runs one command to its end. What others know of a job is kept under one lock, in its
`Control`; each function on `Control` is what one holder of the lock does at once. The exit code
of a process is missing when a signal ended it.
-/

namespace Toolbench.Job

/-- One of the two outputs of a command. -/
inductive Stream where
  | out
  | err
deriving DecidableEq, Repr

/-- The name of an output. -/
def Stream.label : Stream → String
  | .out => "stdout"
  | .err => "stderr"

/-- Where a job stands. -/
inductive State where
  | idle
  | running
  | completed (code : Option Int)
  | interrupted
  | failed
deriving DecidableEq, Repr

/-- The job has ended in some way. -/
def State.isFinished : State → Bool
  | .idle => false
  | .running => false
  | _ => true

/-- How a command that did start came to its end. -/
inductive Outcome where
  /-- It ended on its own. -/
  | completed (code : Option Int)
  /-- It ended after it was asked to, however it ended. -/
  | interrupted
deriving DecidableEq, Repr

namespace Outcome

/-- The command did what was asked. -/
def isSuccess (outcome : Outcome) : Bool :=
  outcome = .completed (some 0)

/-- The state of a job with this outcome. -/
def state : Outcome → State
  | .completed code => .completed code
  | .interrupted => .interrupted

end Outcome

/-- Why a job has no outcome. -/
inductive Failure where
  | spawn (program : String) (cause : SystemError)
  | alreadyStarted
  | missingPipe (stream : Stream)
  | wait (program : String) (cause : SystemError)
deriving DecidableEq, Repr

namespace Failure

/-- What is said about a failure. -/
def message : Failure → String
  | .spawn program cause => "failed to spawn `" ++ program ++ "`: " ++ cause.message
  | .alreadyStarted => "task has already been started"
  | .missingPipe stream => "child process has no " ++ stream.label ++ " pipe"
  | .wait program cause => "waiting for `" ++ program ++ "` failed: " ++ cause.message

/-- The program is not there. -/
def isNotFound : Failure → Bool
  | .spawn _ .notFound => true
  | _ => false

end Failure

/-- The end of a process as it was waited for. -/
abbrev Waited := Except SystemError (Option Int)

/-- What others know of a job. -/
structure Control where
  state : State
  /-- The number of the process while it may be sent signals. -/
  pid : Option Nat
  /-- The job has been asked to end. -/
  interrupted : Bool
deriving DecidableEq, Repr

namespace Control

/-- Before the job is executed. -/
def idle : Control :=
  ⟨.idle, none, false⟩

/-- Begin to run; a job runs only once. -/
def enter? (control : Control) : Option Control :=
  if control.state = .idle then some { control with state := .running } else none

/-- The process has this number. -/
def recordPid (control : Control) (pid : Nat) : Control :=
  { control with pid := some pid }

/-- End without an outcome. -/
def fail (control : Control) : Control :=
  { control with state := .failed, pid := none }

/-- Decide how the job ended. Whether it was asked to end is read under the same lock under which
it stops running, so nobody who asked before is left out. -/
def settle (control : Control) (waited : Waited) : Except SystemError Outcome × Control :=
  let outcome : Except SystemError Outcome :=
    if control.interrupted then .ok .interrupted else waited.map Outcome.completed
  let state := match outcome with
    | .ok outcome => outcome.state
    | .error _ => .failed
  (outcome, { control with state, pid := none })

/-- Ask the job to end. That is possible once, while it runs. Returns the number of its process,
if it is known. -/
def acceptKill? (control : Control) : Option (Option Nat × Control) :=
  if control.state = .running ∧ control.interrupted = false then
    some (control.pid, { control with interrupted := true })
  else none

end Control

end Toolbench.Job
