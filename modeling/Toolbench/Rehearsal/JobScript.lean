import Toolbench.Rehearsal.Schedule

/-!
# Rehearsing a job

A rehearsal of one job: the steps of its script and what each comes to.
-/

namespace Toolbench.Rehearsal

open Job (Callback)

/-- A job with the program that it runs. -/
structure StagedJob where
  job : Job
  standin : Standin
deriving Repr

/-- A step of the script of a job. -/
inductive JobStep where
  | execute
  | kill
  | cue (cue : Cue)
  | exit (code : Option Int) (waits : Bool)
deriving DecidableEq, Repr

/-- What a step of the script of a job comes to. -/
inductive JobAnswer where
  | nothing
  | running
  | heldOpen
  | result (result : Except Job.Failure Job.Outcome)
deriving Repr

namespace StagedJob

/-- A job before it is executed. -/
def ofCommand (command : Command) : StagedJob :=
  ⟨.ofCommand command, .fresh⟩

/-- Carry out a schedule. -/
def act (staged : StagedJob) (schedule : List Job.Action) : StagedJob × List Callback :=
  let (job, told) := staged.job.advance schedule
  ({ staged with job }, told)

/-- What the executing call has returned, if it has. -/
def answer (staged : StagedJob) (otherwise : JobAnswer) : JobAnswer :=
  staged.job.result?.elim otherwise .result

/-- Do a step of a script. -/
def step (host : Host) (staged : StagedJob) : JobStep → JobAnswer × StagedJob × List Callback
  | .execute =>
      match staged.job.enter with
      | .ok _ =>
          let (staged, told) := staged.act (Schedule.execute host staged.job.command)
          (staged.answer .running, staged, told)
      | .error failure => (.result (.error failure), staged, [])
  | .kill =>
      if staged.job.isRunning then
        let (staged, told) := staged.act (.kill :: Schedule.kill staged.standin staged.job)
        (staged.answer .nothing, staged, told)
      else (.nothing, staged, [])
  | .cue cue =>
      let (staged, told) := staged.act (Schedule.perform host staged.job.command cue)
      (.nothing, { staged with standin := cue.prepare staged.standin }, told)
  | .exit code waits =>
      let (staged, told) := staged.act (Schedule.exit staged.standin code waits)
      (staged.answer .heldOpen, staged, told)

end StagedJob

end Toolbench.Rehearsal
