import Toolbench.Build.Manager
import Toolbench.Rehearsal.Schedule

/-!
# Rehearsing a manager of builds

A rehearsal of a manager: one build at a time runs a program that the script speaks to. A call
that replaces a build waits until that build has told its end and left the slot.
-/

namespace Toolbench.Rehearsal

open Build (Invocation Output Run RunResult)

/-- A manager with the program of its current build. -/
structure StagedBuilds where
  manager : BuildManager
  /-- The build whose program the script speaks to. -/
  current : Option Nat
  standin : Standin
deriving Repr

/-- A step of the script of a manager. -/
inductive BuildStep where
  | run (invocation : Invocation)
  | stop
  | cue (cue : Cue)
  | exit (code : Option Int) (waits : Bool)
deriving DecidableEq, Repr

/-- What a step of the script of a manager comes to. -/
inductive BuildAnswer where
  | nothing
  | running
  | heldOpen
  | result (result : RunResult)
deriving DecidableEq, Repr

namespace StagedBuilds

/-- A manager before its first build. -/
def ofSettings (settings : BuildSettings) (env : Environment) : StagedBuilds :=
  ⟨.ofSettings settings env, none, .fresh⟩

/-- Carry out actions, as far as they are possible. -/
def act (staged : StagedBuilds) (actions : List Build.Action) : StagedBuilds × List Output :=
  let (manager, outputs) := staged.manager.advance actions
  ({ staged with manager }, outputs)

/-- The job of a build, and the call around it, after the job has ended. -/
def toEnd (id : Nat) (schedule : List Job.Action) : List Build.Action :=
  schedule.map (.job id) ++ [.conclude id, .finish id, .leave id]

/-- What the call of a build has returned, if it has. -/
def answer (staged : StagedBuilds) (id : Nat) (otherwise : BuildAnswer) : BuildAnswer :=
  match (staged.manager.findRun? id).map Run.point with
  | some (.returned result) => .result result
  | _ => otherwise

/-- The build whose program the script speaks to, unless its call has returned. -/
def speaker? (staged : StagedBuilds) : Option Run :=
  (staged.current.bind staged.manager.findRun?).filter fun run =>
    match run.point with
    | .returned _ => false
    | _ => true

/-- A build that was asked to end, ends. -/
def killRun (staged : StagedBuilds) (id : Nat) : StagedBuilds × List Output :=
  match staged.manager.findRun? id with
  | some run => staged.act (toEnd id (Schedule.kill staged.standin run.job))
  | none => (staged, [])

/-- A build has the slot and is executed. -/
def execute (host : Host) (staged : StagedBuilds) (id : Nat) : StagedBuilds × List Output :=
  match staged.manager.findRun? id with
  | some run =>
      { staged with current := some id, standin := .fresh }.act
        (toEnd id (Schedule.execute host run.job.command))
  | none => (staged, [])

/-- A call to run a build. Returns also what the call of a build that it replaced came to. -/
def run (host : Host) (staged : StagedBuilds) (invocation : Invocation) :
    BuildAnswer × BuildAnswer × StagedBuilds × List Output :=
  let id := staged.manager.nextId
  let (staged, _) := staged.act [.call invocation, .choose id]
  match (staged.manager.findRun? id).map Run.point with
  | some .executing =>
      let (staged, outputs) := staged.execute host id
      (staged.answer id .running, .nothing, staged, outputs)
  | some (.stopping target) =>
      let (staged, _) := staged.act [.replace id]
      let (staged, earlier) := staged.killRun target
      let (staged, _) := staged.act [.resume id, .choose id]
      let (staged, later) := staged.execute host id
      (staged.answer id .running, staged.answer target .nothing, staged, earlier ++ later)
  | _ => (staged.answer id .nothing, .nothing, staged, [])

/-- A call to stop the active build. Returns what the call of that build came to. -/
def stop (staged : StagedBuilds) : BuildAnswer × StagedBuilds × List Output :=
  let index := staged.manager.stops.length
  let (staged, _) := staged.act [.callStop, .look index, .stop index]
  match staged.manager.stops[index]? with
  | some (.awaiting target) =>
      let (staged, outputs) := staged.killRun target
      let (staged, _) := staged.act [.stopReturns index]
      (staged.answer target .nothing, staged, outputs)
  | _ => (.nothing, staged, [])

/-- What the program of the current build does. -/
def perform (staged : StagedBuilds) (schedule : Job → List Job.Action) (otherwise : BuildAnswer) :
    BuildAnswer × StagedBuilds × List Output :=
  match staged.speaker? with
  | some run =>
      let (staged, outputs) := staged.act (toEnd run.id (schedule run.job))
      (staged.answer run.id otherwise, staged, outputs)
  | none => (.nothing, staged, [])

/-- Do a step of a script. Returns also what the call of a replaced build came to. -/
def step (host : Host) (staged : StagedBuilds) :
    BuildStep → BuildAnswer × BuildAnswer × StagedBuilds × List Output
  | .run invocation => staged.run host invocation
  | .stop =>
      let (answer, staged, outputs) := staged.stop
      (answer, .nothing, staged, outputs)
  | .cue cue =>
      let (_, staged, outputs) :=
        staged.perform (fun job => Schedule.perform host job.command cue) .nothing
      (.nothing, .nothing, { staged with standin := cue.prepare staged.standin }, outputs)
  | .exit code waits =>
      let (answer, staged, outputs) :=
        staged.perform (fun _ => Schedule.exit staged.standin code waits) .heldOpen
      (answer, .nothing, staged, outputs)

end StagedBuilds

end Toolbench.Rehearsal
