import Toolbench.Build.Invocation
import Toolbench.Build.Observer
import Toolbench.Diagnostic.Collection
import Toolbench.Environment

/-!
# One build at a time

A manager runs builds and keeps what they find. It has one slot for the build that is active. A
call to run a build first looks into the slot: if the build there has not ended, the busy policy
decides whether the call is dropped, refused, or asks that build to end and looks again. The slot
is taken when it is empty or its build has ended, and is given back when the build is over, unless
a newer one has taken it.

Each `Action` is what one call does while it holds a lock, or what one party of a build's job
does; a history of the manager is any sequence of enabled actions. In particular a job settles,
its observer reads what is pending, the end of the build is told, and the slot is given back in
separate actions, and other calls may act in between.
-/

namespace Toolbench

namespace Build

/-- What a call to run a build returns. -/
inductive RunResult where
  | finished (status : Status)
  /-- Dropped because another build was active. -/
  | skipped
  /-- Refused because this other build was active. -/
  | busy (commandLine : String)
deriving DecidableEq, Repr

/-- What is said when a build is refused. -/
def busyMessage (commandLine : String) : String :=
  "a build is already running: " ++ commandLine

/-- How far a call to run a build has come. -/
inductive RunPoint where
  /-- About to look into the slot. -/
  | choosing
  /-- About to ask the build with this number to end. -/
  | stopping (target : Nat)
  /-- Waiting for the build with this number to end. -/
  | awaiting (target : Nat)
  /-- In the slot; its job is being executed. -/
  | executing
  /-- About to tell how the build ended. -/
  | finishing (status : Status)
  /-- About to give the slot back. -/
  | leaving (status : Status)
  | returned (result : RunResult)
deriving DecidableEq, Repr

/-- A call to run a build. -/
structure Run where
  id : Nat
  commandLine : String
  job : Job
  observer : Observer
  point : RunPoint
deriving Repr

/-- How far a call to stop the active build has come. -/
inductive StopPoint where
  /-- About to look into the slot. -/
  | looking
  /-- About to ask the build with this number to end. -/
  | stopping (target : Nat)
  /-- Waiting for the build with this number to end. -/
  | awaiting (target : Nat)
  /-- Returned; the number is that of the build it found in the slot. -/
  | returned (target : Option Nat)
deriving DecidableEq, Repr

/-- The build that is active. -/
structure Slot where
  id : Nat
  commandLine : String
deriving DecidableEq, Repr

/-- What a manager lets others see. -/
inductive Output where
  | event (event : Event)
  | update (update : EditorUpdate)
deriving DecidableEq, Repr

/-- What one party does at once. -/
inductive Action where
  /-- A call to run a build begins. -/
  | call (invocation : Invocation)
  /-- A call to run a build looks into the slot. -/
  | choose (id : Nat)
  /-- A call to run a build asks the active one to end. -/
  | replace (id : Nat)
  /-- A call to run a build sees the end of the one it waits for. -/
  | resume (id : Nat)
  /-- A party of a build's job acts. -/
  | job (id : Nat) (action : Job.Action)
  /-- A call to run a build learns how its job ended. -/
  | conclude (id : Nat)
  /-- A call to run a build tells how the build ended. -/
  | finish (id : Nat)
  /-- A call to run a build gives the slot back and returns. -/
  | leave (id : Nat)
  /-- A call to stop the active build begins. -/
  | callStop
  /-- A call to stop looks into the slot. -/
  | look (index : Nat)
  /-- A call to stop asks the build it found to end. -/
  | stop (index : Nat)
  /-- A call to stop sees the end of the build it found. -/
  | stopReturns (index : Nat)
deriving Repr

end Build

/-- A manager of builds. -/
structure BuildManager where
  settings : BuildSettings
  /-- The variables that settings may refer to. -/
  env : Environment
  collection : Collection
  slot : Option Build.Slot
  nextId : Nat
  /-- It has been told that the tool is not there. -/
  missingTold : Bool
  /-- All calls to run a build so far. -/
  runs : List Build.Run
  /-- All calls to stop the active build so far. -/
  stops : List Build.StopPoint
deriving Repr

namespace Build

/-- How a build ended whose job ended like this. -/
def statusOf (tool : String) : Except Job.Failure Job.Outcome → Status
  | .ok (.completed (some 0)) => .success
  | .ok (.completed code) => .failed code
  | .ok .interrupted => .interrupted
  | .error failure =>
      if failure.isNotFound then .toolMissing tool else .spawnFailed failure.message

end Build

namespace BuildManager

open Build

/-- A manager before its first build. -/
def ofSettings (settings : BuildSettings) (env : Environment) : BuildManager :=
  ⟨settings, env, .empty, none, 1, false, [], []⟩

/-- The call with a number. -/
def findRun? (manager : BuildManager) (id : Nat) : Option Run :=
  manager.runs.find? (·.id = id)

/-- The manager with a call replaced by one of the same number. -/
def setRun (manager : BuildManager) (run : Run) : BuildManager :=
  { manager with runs := manager.runs.map fun other => if other.id = run.id then run else other }

/-- The job with a number has ended. -/
def hasEnded (manager : BuildManager) (id : Nat) : Bool :=
  ((manager.findRun? id).map (·.job.isFinished)).getD true

/-- The build in the slot that has not ended. -/
def active? (manager : BuildManager) : Option Slot :=
  manager.slot.filter fun slot => !manager.hasEnded slot.id

/-- A build is active. -/
def isBusy (manager : BuildManager) : Bool :=
  manager.active?.isSome

/-- The diagnostics so far, in reading order. -/
def snapshot (manager : BuildManager) : Snapshot :=
  manager.collection.snapshot

/-- The command that an invocation runs. -/
def commandFor (manager : BuildManager) (invocation : Invocation) : Command :=
  Build.commandFor manager.settings manager.env.value? invocation

/-- The call that runs a command. -/
def newRun (manager : BuildManager) (invocation : Invocation) : Run :=
  let command := manager.commandFor invocation
  let directory := command.directory.getD invocation.directory
  ⟨manager.nextId, command.display, .ofCommand command,
    .fresh manager.settings.outputMode directory command.display, .choosing⟩

/-- Carry out what an observer asks for. -/
def report (manager : BuildManager) (directory : Path) :
    Report → BuildManager × List Output
  | .clear =>
      let (collection, update) := manager.collection.clear
      ({ manager with collection }, [.update update])
  | .emit event => (manager, [.event event])
  | .publish diagnostics =>
      let (collection, updates) := manager.collection.publishAll directory diagnostics
      ({ manager with collection }, updates.map .update)

/-- Carry out what an observer asks for, in order. -/
def reportAll (directory : Path) : BuildManager → List Report → BuildManager × List Output
  | manager, [] => (manager, [])
  | manager, report :: reports =>
      let (manager, outputs) := manager.report directory report
      let (manager, later) := manager.reportAll directory reports
      (manager, outputs ++ later)

/-- Look into the slot: take it, or do what the policy says. -/
def choose (manager : BuildManager) (run : Run) : BuildManager :=
  match manager.active? with
  | none =>
      { manager.setRun { run with point := .executing } with
        slot := some ⟨run.id, run.commandLine⟩ }
  | some slot =>
      match manager.settings.onBusy with
      | .ignore => manager.setRun { run with point := .returned .skipped }
      | .ask => manager.setRun { run with point := .returned (.busy slot.commandLine) }
      | .stop => manager.setRun { run with point := .stopping slot.id }

/-- Ask the build with a number to end. Returns whether that was allowed. -/
def kill (manager : BuildManager) (target : Nat) : Bool × BuildManager :=
  match manager.findRun? target with
  | none => (false, manager)
  | some run =>
      match run.job.control.acceptKill? with
      | none => (false, manager)
      | some (pid, control) =>
          (true, manager.setRun { run with
            job := { run.job with control, killer := .accepted pid } })

/-- The allowed call that asked a build to end has returned. -/
def killReturned (manager : BuildManager) (target : Nat) : Bool :=
  ((manager.findRun? target).map fun run => run.job.killer == .returned).getD true

/-- A party of a build's job acts, and the observer is told. -/
def jobStep? (manager : BuildManager) (run : Run) (action : Job.Action) :
    Option (BuildManager × List Output) := do
  let (job, told) ← run.job.step? action
  let (observer, reports) := run.observer.observeAll told
  pure ((manager.setRun { run with job, observer }).reportAll observer.directory reports)

/-- Steps of a call to run a build. -/
def runStep? (manager : BuildManager) (run : Run) (action : Action) :
    Option (BuildManager × List Output) :=
  match run.point, action with
  | .choosing, .choose _ => some (manager.choose run, [])
  | .stopping target, .replace _ =>
      let (allowed, manager) := manager.kill target
      let point := if allowed then RunPoint.awaiting target else .choosing
      some (manager.setRun { run with point }, [])
  | .awaiting target, .resume _ =>
      if manager.killReturned target then
        some (manager.setRun { run with point := .choosing }, [])
      else none
  | .executing, .conclude _ => do
      let result ← run.job.result?
      let status := statusOf manager.settings.tool result
      let manager := manager.setRun { run with point := .finishing status }
      match status with
      | .toolMissing program =>
          if manager.missingTold then pure (manager, [])
          else pure ({ manager with missingTold := true }, [.event (.toolMissing program)])
      | _ => pure (manager, [])
  | .finishing status, .finish _ =>
      some (manager.setRun { run with point := .leaving status }, [.event (.finished status)])
  | .leaving status, .leave _ =>
      let slot := manager.slot.filter (·.id ≠ run.id)
      some ({ manager.setRun { run with point := .returned (.finished status) } with slot }, [])
  | _, _ => none

/-- The manager with a call to stop at another point. -/
def setStop (manager : BuildManager) (index : Nat) (point : StopPoint) : BuildManager :=
  { manager with stops := manager.stops.set index point }

/-- Steps of a call to stop the active build. -/
def stopStep? (manager : BuildManager) (index : Nat) (action : Action) : Option BuildManager := do
  match ← manager.stops[index]?, action with
  | .looking, .look _ =>
      match manager.slot with
      | none => pure (manager.setStop index (.returned none))
      | some slot => pure (manager.setStop index (.stopping slot.id))
  | .stopping target, .stop _ =>
      let (allowed, manager) := manager.kill target
      pure (manager.setStop index (if allowed then .awaiting target else .returned (some target)))
  | .awaiting target, .stopReturns _ =>
      if manager.killReturned target then pure (manager.setStop index (.returned (some target)))
      else none
  | _, _ => none

/-- What an action does to a manager and what others see of it, if the action is possible. A job
is asked to end only through the calls that do so. -/
def step? (manager : BuildManager) (action : Action) : Option (BuildManager × List Output) :=
  match action with
  | .call invocation =>
      some ({ manager with
        nextId := manager.nextId + 1
        runs := manager.runs ++ [manager.newRun invocation] }, [])
  | .callStop => some ({ manager with stops := manager.stops ++ [.looking] }, [])
  | .look index | .stop index | .stopReturns index =>
      (manager.stopStep? index action).map (·, [])
  | .job _ .kill => none
  | .job id .execute => do
      let run ← manager.findRun? id
      if run.point = .executing then manager.jobStep? run .execute else none
  | .job id action => do manager.jobStep? (← manager.findRun? id) action
  | .choose id | .replace id | .resume id | .conclude id | .finish id | .leave id => do
      manager.runStep? (← manager.findRun? id) action

/-- Do actions one after the other, if each is possible in its turn. -/
def run? (manager : BuildManager) (actions : List Action) :
    Option (BuildManager × List Output) :=
  Machine.run? step? manager actions

/-- Do those actions that are possible in their turn, and leave out the others. -/
def advance (manager : BuildManager) (actions : List Action) : BuildManager × List Output :=
  Machine.advance step? manager actions

end BuildManager

end Toolbench
