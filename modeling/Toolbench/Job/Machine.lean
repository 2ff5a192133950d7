import Toolbench.Job.Basic
import Toolbench.Job.Command
import Toolbench.Job.Group
import Toolbench.Machine
import Toolbench.Stream.LineBuffer

/-!
# The steps of a job

A job is carried out by several parties: the call that executes it, one reader for each output of
the command, the command itself, and the call that asks the job to end. They meet only under the
job's lock, in the queue of lines, in the stored permit to kill, and through signals. Each
`Action` is what one party does without the others coming between; a run of the job is any
sequence of enabled actions. `step?` is `none` for an action that is not possible.

The executing call loops over three things: it hands queued lines to the observer, waits for the
process, and kills the process group when a permit is stored. When the process has ended it
drains the outputs, which other processes may still hold open, and only then settles the job. A
call that asks the job to end first signals the group, or stores a permit if there is no group
yet or the signal fails, and stores a permit again when the job has not ended after a grace.
-/

namespace Toolbench

namespace Job

/-- One output on its way from the command to the queue of lines. -/
structure Lane where
  /-- Bytes that were written and not read yet. -/
  unread : List UInt8
  /-- Somebody may still write. -/
  isOpen : Bool
  buffer : LineBuffer
  /-- There is a reader, and it has not seen the end yet. -/
  reading : Bool
deriving DecidableEq, Repr

/-- An output before anything is written. -/
def Lane.fresh : Lane :=
  ⟨[], true, .empty, false⟩

/-- The process of the command. -/
inductive Child where
  | absent
  | alive (pid : Nat)
  | ended (code : Option Int)
deriving DecidableEq, Repr

/-- How far the executing call has come. -/
inductive Point where
  /-- Not called yet. -/
  | idle
  /-- The job runs; the observer does not know yet. -/
  | entered
  /-- The observer knows; there is no process yet. -/
  | announced
  /-- There is a process; its number is not recorded yet. -/
  | spawned (pid : Nat)
  /-- The number is recorded; the outputs are not taken yet. -/
  | recorded
  /-- An output is missing; the process was killed. -/
  | abandoning (stream : Stream)
  /-- In the loop. -/
  | looping
  /-- The process has ended. -/
  | reaped (waited : Waited)
  /-- Waiting for the ends of the outputs. -/
  | draining (waited : Waited)
  /-- About to decide how the job ended. -/
  | drained (waited : Waited)
  /-- Decided; the observer does not know yet. -/
  | settled (outcome : Outcome)
  | returned (result : Except Failure Outcome)
deriving Repr

/-- How far the call has come that was allowed to ask the job to end. -/
inductive Killer where
  | absent
  /-- Allowed; nothing has been sent yet. -/
  | accepted (pid : Option Nat)
  /-- Waiting for the end, at most for the grace. -/
  | waiting
  /-- Waiting for the end after the grace. -/
  | forcing
  | returned
deriving DecidableEq, Repr

/-- What an observer of a job is told. -/
inductive Callback where
  | started
  | line (stream : Stream) (text : String)
  | exited (outcome : Outcome)
deriving DecidableEq, Repr

/-- What one party does at once. -/
inductive Action where
  /-- A call to execute the job enters. -/
  | execute
  | announce
  | spawn (result : Except SystemError Nat)
  | recordPid
  /-- Take the outputs of the process; one may be missing. -/
  | takePipes (missing : Option Stream)
  /-- The killed process without outputs has ended. -/
  | abandon
  /-- Hand the first line of the queue to the observer. -/
  | dispatch
  /-- The process has ended, or cannot be waited for. -/
  | reap (failure : Option SystemError)
  /-- Kill the group because a permit is stored. -/
  | force
  /-- Kill what is left of the group if the job was asked to end. -/
  | sweep
  /-- Both outputs are at their ends and the queue is empty. -/
  | drain
  /-- The outputs are open for too long after the end. -/
  | giveUp
  | settle
  | reportExit
  /-- A call that asks the job to end. -/
  | kill
  /-- The allowed call sends the interrupt. -/
  | signal (result : Except SystemError SignalOutcome)
  /-- The grace is over and the job has not ended. -/
  | graceOver
  /-- The allowed call sees the end of the job. -/
  | killReturns
  /-- The command, or what it started, writes. -/
  | write (stream : Stream) (bytes : List UInt8)
  /-- Nobody can write any more. -/
  | close (stream : Stream)
  | childEnds (code : Option Int)
  /-- A reader takes up to `count` bytes. -/
  | read (stream : Stream) (count : Nat)
  /-- A reader sees the end. -/
  | readEnd (stream : Stream)
deriving Repr

end Job

/-- A command that is run once. -/
structure Job where
  command : Command
  control : Job.Control
  point : Job.Point
  child : Job.Child
  out : Job.Lane
  err : Job.Lane
  /-- Lines that were read and not handed to the observer yet. -/
  queue : List (Job.Stream × String)
  /-- A permit to kill is stored. -/
  permit : Bool
  killer : Job.Killer
  /-- The signals that the process group was sent, last first. -/
  signals : List Job.GroupSignal
deriving Repr

namespace Job

/-- The job that is going to run a command. -/
def ofCommand (command : Command) : Job :=
  ⟨command, .idle, .idle, .absent, .fresh, .fresh, [], false, .absent, []⟩

/-- An output of the command. -/
def lane (job : Job) : Stream → Lane
  | .out => job.out
  | .err => job.err

/-- The job with an output replaced. -/
def setLane (job : Job) (stream : Stream) (lane : Lane) : Job :=
  match stream with
  | .out => { job with out := lane }
  | .err => { job with err := lane }

/-- How many bytes a reader takes at most. -/
def readSize : Nat :=
  8192

/-- What a call to execute the job does first, or how it fails at once: a job is executed only
once. -/
def enter (job : Job) : Except Failure Job :=
  match job.control.enter? with
  | some control => .ok { job with control, point := .entered }
  | none => .error .alreadyStarted

/-- Further steps of the call that executes the job. -/
def executeStep? (job : Job) (action : Action) : Option (Job × List Callback) :=
  match job.point, action with
  | .entered, .announce => some ({ job with point := .announced }, [.started])
  | .announced, .spawn (.ok pid) =>
      some ({ job with point := .spawned pid, child := .alive pid }, [])
  | .announced, .spawn (.error cause) =>
      some ({ job with
        control := job.control.fail
        point := .returned (.error (.spawn job.command.program cause)) }, [])
  | .spawned pid, .recordPid =>
      some ({ job with control := job.control.recordPid pid, point := .recorded }, [])
  | .recorded, .takePipes none =>
      some ({ job with
        point := .looping
        out := { job.out with reading := true }
        err := { job.err with reading := true } }, [])
  | .recorded, .takePipes (some stream) =>
      some ({ job with point := .abandoning stream, signals := .kill :: job.signals }, [])
  | .abandoning stream, .abandon =>
      match job.child with
      | .ended _ =>
          some ({ job with
            control := job.control.fail
            point := .returned (.error (.missingPipe stream)) }, [])
      | _ => none
  | .looping, .dispatch | .draining _, .dispatch =>
      match job.queue with
      | [] => none
      | (stream, text) :: queue => some ({ job with queue }, [.line stream text])
  | .looping, .force | .draining _, .force =>
      if job.permit then
        some ({ job with permit := false, signals := .kill :: job.signals }, [])
      else none
  | .looping, .reap (some cause) => some ({ job with point := .reaped (.error cause) }, [])
  | .looping, .reap none =>
      match job.child with
      | .ended code => some ({ job with point := .reaped (.ok code) }, [])
      | _ => none
  | .reaped waited, .sweep =>
      let signals := if job.control.interrupted then .kill :: job.signals else job.signals
      some ({ job with signals, point := .draining waited }, [])
  | .draining waited, .drain =>
      if job.queue.isEmpty && !job.out.reading && !job.err.reading then
        some ({ job with point := .drained waited }, [])
      else none
  | .draining waited, .giveUp => some ({ job with point := .drained waited }, [])
  | .drained waited, .settle =>
      match job.control.settle waited with
      | (.ok outcome, control) => some ({ job with control, point := .settled outcome }, [])
      | (.error cause, control) =>
          some ({ job with
            control
            point := .returned (.error (.wait job.command.program cause)) }, [])
  | .settled outcome, .reportExit =>
      some ({ job with point := .returned (.ok outcome) }, [.exited outcome])
  | _, _ => none

/-- Steps of calls that ask the job to end. One that is not allowed to does nothing. -/
def killStep? (job : Job) : Action → Option Job
  | .kill =>
      match job.control.acceptKill? with
      | some (pid, control) => some { job with control, killer := .accepted pid }
      | none => some job
  | .signal result =>
      match job.killer with
      | .accepted none => some { job with killer := .waiting, permit := true }
      | .accepted (some _) =>
          match result, job.child with
          | .ok .notRunning, .alive _ => none
          | .ok .notRunning, _ => some { job with killer := .waiting }
          | .ok .signalled, _ =>
              some { job with killer := .waiting, signals := .interrupt :: job.signals }
          | .error _, _ => some { job with killer := .waiting, permit := true }
      | _ => none
  | .graceOver =>
      if job.killer = .waiting ∧ job.control.state.isFinished = false then
        some { job with killer := .forcing, permit := true }
      else none
  | .killReturns =>
      if (job.killer = .waiting ∨ job.killer = .forcing) ∧ job.control.state.isFinished = true then
        some { job with killer := .returned }
      else none
  | _ => none

/-- Steps of the process and of the readers of its outputs. -/
def outsideStep? (job : Job) : Action → Option Job
  | .write stream bytes =>
      let lane := job.lane stream
      if lane.isOpen && job.child != .absent then
        some (job.setLane stream { lane with unread := lane.unread ++ bytes })
      else none
  | .close stream =>
      if job.child = .absent then none
      else some (job.setLane stream { job.lane stream with isOpen := false })
  | .childEnds code =>
      match job.child with
      | .alive _ => some { job with child := .ended code }
      | _ => none
  | .read stream count =>
      let lane := job.lane stream
      let count := min count readSize
      if lane.reading && !(lane.unread.take count).isEmpty then
        let (lines, buffer) := lane.buffer.feed (lane.unread.take count)
        let job := job.setLane stream { lane with unread := lane.unread.drop count, buffer }
        some { job with queue := job.queue ++ lines.map (stream, ·) }
      else none
  | .readEnd stream =>
      let lane := job.lane stream
      if lane.reading && lane.unread.isEmpty && !lane.isOpen then
        let (tail, buffer) := lane.buffer.finish
        let job := job.setLane stream { lane with buffer, reading := false }
        some { job with queue := job.queue ++ (tail.map (stream, ·)).toList }
      else none
  | _ => none

/-- What an action does to a job and what the observer is told, if the action is possible. A call
to execute a job that fails at once does nothing. -/
def step? (job : Job) (action : Action) : Option (Job × List Callback) :=
  match action with
  | .execute =>
      match job.enter with
      | .ok entered => some (entered, [])
      | .error _ => some (job, [])
  | .kill | .signal _ | .graceOver | .killReturns => (job.killStep? action).map (·, [])
  | .write _ _ | .close _ | .childEnds _ | .read _ _ | .readEnd _ =>
      (job.outsideStep? action).map (·, [])
  | action => job.executeStep? action

/-- Do actions one after the other, if each is possible in its turn. -/
def run? (job : Job) (actions : List Action) : Option (Job × List Callback) :=
  Machine.run? step? job actions

/-- Do those actions that are possible in their turn, and leave out the others. -/
def advance (job : Job) (actions : List Action) : Job × List Callback :=
  Machine.advance step? job actions

/-- What the executing call returned. -/
def result? (job : Job) : Option (Except Failure Outcome) :=
  match job.point with
  | .returned result => some result
  | _ => none

/-- The job is being executed. -/
def isRunning (job : Job) : Bool :=
  job.control.state == .running

/-- The job was executed and has ended in some way. -/
def isFinished (job : Job) : Bool :=
  job.control.state.isFinished

end Job

end Toolbench
