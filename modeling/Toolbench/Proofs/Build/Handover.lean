import Toolbench.Proofs.Build.SingleFlight
import Toolbench.Proofs.Build.Streaming

/-!
# What an earlier build still tells

A build gives way when its job is settled. What was pending in its blocks is read after that, and
its end is told later still, so a newer build may have started in between: `not_separate` is a
history in which that happens. `told_after_start` says what can be told that late and that it is
all. Read `MayTell` first: a call that has given way has at most three things left to tell, each
of them once and in a fixed order, and `mayTell_of_step` takes one of them off.
-/

namespace Toolbench

namespace Job

variable {job next : Job} {action : Action} {told : List Callback}

/-- The call that executed a finished job has decided how it ended, and has returned or is about
to. -/
theorem Coherent.point_of_isFinished (h : job.Coherent) (hfinished : job.isFinished = true) :
    (∃ outcome, job.point = .settled outcome) ∨ ∃ result, job.point = .returned result := by
  have hstate : job.control.state ≠ .idle ∧ job.control.state ≠ .running := by
    unfold isFinished at hfinished
    constructor
    all_goals
      intro hopen
      rw [hopen] at hfinished
      exact nomatch hfinished
  cases hpoint : job.point with
  | settled outcome => exact .inl ⟨outcome, rfl⟩
  | returned result => exact .inr ⟨result, rfl⟩
  | idle => exact absurd (congrArg Control.state (h.fits_at hpoint).1) hstate.1
  | entered | announced | reaped | draining | drained =>
      exact absurd (h.fits_at hpoint).1 hstate.2
  | spawned | recorded | abandoning | looping => exact absurd (h.fits_at hpoint) hstate.2

/-- A finished job tells its exit once, and otherwise nothing. -/
theorem Step.of_isFinished (h : Step job action next told) (hjob : job.Coherent)
    (hfinished : job.isFinished = true) :
    (next.point = job.point ∧ told = []) ∨
      ∃ outcome, job.point = .settled outcome ∧ next.point = .returned (.ok outcome) ∧
        told = [.exited outcome] := by
  have hpoint := hjob.point_of_isFinished hfinished
  cases h with
  | execute hidle =>
      unfold isFinished at hfinished
      rw [hidle] at hfinished
      exact nomatch hfinished
  | reportExit outcome hsettled => exact .inr ⟨outcome, hsettled, rfl, rfl⟩
  | write | close | read | readEnd => exact .inl ⟨by simp, rfl⟩
  | announce h | spawn _ h | spawnFails _ h | recordPid _ h | takePipes h | pipeMissing _ h
  | abandon _ _ h | reap _ h | reapFails _ h | sweep _ h | drain _ h | giveUp _ h
  | settle _ _ _ h | settleFails _ _ _ h =>
      rw [h] at hpoint
      rcases hpoint with ⟨_, hother⟩ | ⟨_, hother⟩ <;> exact nomatch hother
  | dispatch _ _ _ hserving | force hserving =>
      rcases hpoint with ⟨_, hother⟩ | ⟨_, hother⟩
      all_goals
        rw [hother] at hserving
        exact nomatch hserving
  | _ => exact .inl ⟨rfl, rfl⟩

end Job

namespace Build

open Job (Callback Outcome)

namespace Observer

variable {observer : Observer}

/-- Nothing is pending where every diagnostic stands in one line. -/
def Quiet (observer : Observer) : Prop :=
  observer.mode ≠ .human → ∀ stream, observer.pending stream = []

/-- A flush reads nothing where nothing is pending. -/
theorem flush_of_pending_eq_nil {stream : Job.Stream} (h : observer.pending stream = []) :
    observer.flush stream = (observer, []) := by
  simp only [flush, h]

/-- A quiet observer stays as it is, unless it reads blocks. -/
theorem Quiet.observe_eq (h : observer.Quiet) (hmode : observer.mode ≠ .human)
    (callback : Callback) : (observer.observe callback).1 = observer := by
  cases callback with
  | started => rfl
  | line stream text =>
      cases hline : observer.mode with
      | human => exact absurd hline hmode
      | json => exact congrArg Prod.fst (line_of_json hline stream text)
      | legacy => exact congrArg Prod.fst (line_of_legacy hline stream text)
  | exited outcome =>
      show ((observer.flush .out).1.flush .err).1 = observer
      rw [flush_of_pending_eq_nil (h hmode .out), flush_of_pending_eq_nil (h hmode .err)]

/-- What a job tells does not change how its lines are read. -/
theorem observe_mode (observer : Observer) (callback : Callback) :
    (observer.observe callback).1.mode = observer.mode := by
  cases callback with
  | started => rfl
  | line stream text => exact line_mode observer stream text
  | exited outcome =>
      show ((observer.flush .out).1.flush .err).1.mode = observer.mode
      rw [flush_mode, flush_mode]

/-- An observer stays quiet. -/
theorem Quiet.observeAll (h : observer.Quiet) (callbacks : List Callback) :
    (observer.observeAll callbacks).1.Quiet := by
  induction callbacks generalizing observer with
  | nil => exact h
  | cons callback callbacks ih =>
      have hnext : (observer.observe callback).1.Quiet := by
        intro hmode
        rw [observe_mode] at hmode
        rw [h.observe_eq hmode]
        exact h hmode
      exact ih hnext

/-- At the exit of the job nothing is asked for but to publish what is read from the blocks. -/
theorem Quiet.observe_exited (h : observer.Quiet) (outcome : Outcome) :
    (∀ report ∈ (observer.observe (.exited outcome)).2, ∃ ds, report = .publish ds) ∧
      (observer.mode ≠ .human → (observer.observe (.exited outcome)).2 = []) := by
  have hflush : ∀ (observer : Observer) (stream : Job.Stream),
      ∀ report ∈ (observer.flush stream).2, ∃ ds, report = .publish ds := by
    intro observer stream report hreport
    unfold flush at hreport
    split at hreport
    · exact absurd hreport List.not_mem_nil
    · exact ⟨_, List.mem_singleton.1 hreport⟩
  constructor
  · intro report hreport
    rcases List.mem_append.1 hreport with hout | herr
    · exact hflush observer .out report hout
    · exact hflush _ .err report herr
  · intro hmode
    show (observer.flush .out).2 ++ ((observer.flush .out).1.flush .err).2 = []
    rw [flush_of_pending_eq_nil (h hmode .out), flush_of_pending_eq_nil (h hmode .err)]
    rfl

end Observer

/-- The call whose turn it is. -/
def Action.run? : Action → Option Nat
  | .choose id | .replace id | .resume id | .job id _ | .conclude id | .finish id | .leave id =>
      some id
  | .call _ | .callStop | .look _ | .stop _ | .stopReturns _ => none

/-- The call knows how its job ended. -/
def RunPoint.isConcluded : RunPoint → Bool
  | .finishing _ | .leaving _ | .returned (.finished _) => true
  | _ => false

/-- The call has taken the slot, whether or not it still holds it. -/
def Run.HasTaken (run : Run) : Prop :=
  run.point = .executing ∨ run.point.isConcluded = true

/-- What is known of a call besides its place in the slot: it goes on when its job has told its
exit, and lines are pending only where blocks are read. -/
structure Run.Orderly (run : Run) : Prop where
  returned : run.point.isConcluded = true → ∃ result, run.job.point = .returned result
  quiet : run.observer.Quiet

/-- What a call may tell last: the diagnostics of the blocks that were pending, that the tool is
not there, and how the build ended. -/
def endings (updates : List EditorUpdate) (missing : Option String) (status : Option Status) :
    List Output :=
  updates.map .update ++ (missing.toList.map fun program => .event (.toolMissing program))
    ++ status.toList.map fun status => .event (.finished status)

/-- A call whose job is settled may still tell this. Each of the endings has its point: blocks are
read before the job tells its exit, and only where there are blocks, and the tool is said to be
missing before the end is told. -/
def MayTell (run : Run) (told : List Output) : Prop :=
  ∃ updates missing status, told = endings updates missing status ∧
    (updates ≠ [] → run.observer.mode = .human ∧ ∃ outcome, run.job.point = .settled outcome) ∧
    (missing ≠ none → run.point = .executing) ∧
    (status ≠ none → run.point = .executing ∨ ∃ status, run.point = .finishing status)

end Build

namespace BuildManager

open Build

variable {manager next : BuildManager} {run : Run} {action : Action} {outputs : List Output}

/-- What an observer asks for leaves the calls as they are. -/
theorem runs_reportAll (directory : Path) (manager : BuildManager) (reports : List Report) :
    (manager.reportAll directory reports).1.runs = manager.runs := by
  obtain ⟨collection, heq⟩ := reportAll_eq directory manager reports
  rw [heq]

/-- To publish diagnostics tells the editor of changes and nothing else. -/
theorem reportAll_publish (directory : Path) {reports : List Report}
    (h : ∀ report ∈ reports, ∃ ds, report = .publish ds) (manager : BuildManager) :
    ∃ updates : List EditorUpdate,
      (manager.reportAll directory reports).2 = updates.map .update := by
  induction reports generalizing manager with
  | nil => exact ⟨[], rfl⟩
  | cons report reports ih =>
      obtain ⟨⟨ds, rfl⟩, hrest⟩ := List.forall_mem_cons.1 h
      obtain ⟨updates, hupdates⟩ := ih hrest (manager.report directory (.publish ds)).1
      refine ⟨(manager.collection.publishAll directory ds).2 ++ updates, ?_⟩
      rw [List.map_append, ← hupdates]
      rfl

/-! ## Calls are orderly -/

/-- When one call changes and is orderly, all are. -/
theorem orderly_setRun (h : ∀ run ∈ manager.runs, run.Orderly) (hrun : run.Orderly) :
    ∀ other ∈ (manager.setRun run).runs, other.Orderly := by
  intro other hother
  rcases mem_setRun_iff.1 hother with ⟨rfl, -⟩ | ⟨hold, -⟩
  · exact hrun
  · exact h other hold

/-- To ask a build to end leaves all calls orderly. -/
theorem orderly_kill (h : ∀ run ∈ manager.runs, run.Orderly) (target : Nat) :
    ∀ run ∈ (manager.kill target).2.runs, run.Orderly := by
  rcases manager.kill_cases target with heq | ⟨run, hrun, -, -, heq⟩
  · rw [heq]
    exact h
  · have horderly := h run (mem_of_findRun? hrun).1
    rw [heq]
    exact orderly_setRun h ⟨horderly.returned, horderly.quiet⟩

/-- Every step of a manager leaves all calls orderly. -/
theorem orderly_step (hflight : SingleFlight manager) (h : ∀ run ∈ manager.runs, run.Orderly)
    (hstep : Step manager action next outputs) : ∀ run ∈ next.runs, run.Orderly := by
  cases hstep with
  | call invocation =>
      intro run hrun
      rcases List.mem_append.1 hrun with hold | hnew
      · exact h run hold
      · rw [List.mem_singleton.1 hnew]
        exact ⟨nofun, fun _ stream => Observer.pending_fresh _ _ _ stream⟩
  | take run hrun | skip run _ hrun | refuse run _ hrun | stopOther run _ hrun
  | resume run _ hrun =>
      exact orderly_setRun h ⟨nofun, (h run (mem_of_findRun? hrun).1).quiet⟩
  | replace run target hrun =>
      refine orderly_setRun (orderly_kill h target) ⟨?_, (h run (mem_of_findRun? hrun).1).quiet⟩
      dsimp only
      split <;> exact nofun
  | job run action job told hrun hexecute _ hstep =>
      have hmem := (mem_of_findRun? hrun).1
      rw [runs_reportAll]
      refine orderly_setRun h ⟨fun hconcluded => ?_, (h run hmem).quiet.observeAll told⟩
      obtain ⟨result, hresult⟩ := (h run hmem).returned hconcluded
      have hjob := hflight.coherent run hmem
      have hfinished : run.job.isFinished = true :=
        hjob.isFinished_of_result? (Job.result?_of_point hresult)
      rcases (Job.Step.of_step? hstep).of_isFinished hjob hfinished with
        ⟨hpoint, -⟩ | ⟨outcome, hsettled, -⟩
      · exact ⟨result, hpoint.trans hresult⟩
      · exact nomatch hsettled.symm.trans hresult
  | conclude run result hrun hpoint hresult | concludeMissing run result _ hrun hpoint hresult =>
      exact orderly_setRun h ⟨fun _ => ⟨_, Job.point_of_result? hresult⟩,
        (h run (mem_of_findRun? hrun).1).quiet⟩
  | finish run status hrun hpoint | leave run status hrun hpoint =>
      have horderly := h run (mem_of_findRun? hrun).1
      refine orderly_setRun h ⟨fun _ => horderly.returned ?_, horderly.quiet⟩
      rw [hpoint]
      rfl
  | callStop | look | stopReturns => exact h
  | stop index target => exact orderly_kill h target

/-! ## What is left to tell -/

/-- Nothing may always be told. -/
theorem mayTell_nil (run : Run) : MayTell run [] :=
  ⟨[], none, none, rfl, fun h => absurd rfl h, fun h => absurd rfl h, fun h => absurd rfl h⟩

/-- What a call may tell depends on how far it and its job have come. -/
theorem mayTell_congr {other : Run} {told : List Output} (h : MayTell run told)
    (hobserver : other.observer = run.observer) (hjob : other.job.point = run.job.point)
    (hpoint : other.point = run.point) : MayTell other told := by
  unfold MayTell
  rw [hobserver, hjob, hpoint]
  exact h

/-- When the job has told its exit, no blocks are left. -/
theorem mayTell_returned {told : List Output} (h : MayTell run told)
    {result : Except Job.Failure Job.Outcome} (hreturned : run.job.point = .returned result) :
    ∃ missing status, told = endings [] missing status ∧
      (missing ≠ none → run.point = .executing) ∧
      (status ≠ none → run.point = .executing ∨ ∃ status, run.point = .finishing status) := by
  obtain ⟨updates, missing, status, rfl, hupdates, hrest⟩ := h
  have hread : updates = [] := by
    by_contra hsome
    obtain ⟨-, outcome, hsettled⟩ := hupdates hsome
    exact nomatch hreturned.symm.trans hsettled
  exact ⟨missing, status, by rw [hread], hrest⟩

/-- When a call knows how its job ended, that is all that is left to tell. -/
theorem mayTell_concluded {told : List Output} (h : MayTell run told)
    {result : Except Job.Failure Job.Outcome} (hreturned : run.job.point = .returned result)
    (hpoint : run.point ≠ .executing) :
    ∃ status, told = endings [] none status ∧
      (status ≠ none → ∃ status, run.point = .finishing status) := by
  obtain ⟨missing, status, rfl, hmissing, hstatus⟩ := mayTell_returned h hreturned
  have hknown : missing = none := by
    by_contra hsome
    exact hpoint (hmissing hsome)
  exact ⟨status, by rw [hknown], fun hsome => (hstatus hsome).resolve_left hpoint⟩

/-- When a call has told how its build ended, nothing is left. -/
theorem mayTell_over {told : List Output} (h : MayTell run told)
    {result : Except Job.Failure Job.Outcome} (hreturned : run.job.point = .returned result)
    (hexecuting : run.point ≠ .executing) (hfinishing : ∀ status, run.point ≠ .finishing status) :
    told = [] := by
  obtain ⟨status, rfl, hstatus⟩ := mayTell_concluded h hreturned hexecuting
  cases status with
  | none => rfl
  | some status =>
      obtain ⟨other, hpoint⟩ := hstatus nofun
      exact absurd hpoint (hfinishing other)

/-- A call changes and can be found where it was. -/
theorem mem_setRun (hmem : run ∈ manager.runs) {changed : Run} (hid : changed.id = run.id) :
    changed ∈ (manager.setRun changed).runs :=
  mem_setRun_iff.2 (.inl ⟨rfl, run, hmem, hid.symm⟩)

/-- The other calls stay as they are, when their jobs are finished. -/
theorem mem_of_step_other (hflight : SingleFlight manager)
    (hstep : Step manager action next outputs) (hmem : run ∈ manager.runs)
    (hfinished : run.job.isFinished = true) (hother : action.run? ≠ some run.id) :
    run ∈ next.runs := by
  have hset : ∀ changed : Run, run.id ≠ changed.id → run ∈ (manager.setRun changed).runs :=
    fun changed hne => mem_setRun_iff.2 (.inr ⟨hmem, hne⟩)
  -- A job that is finished is not asked to end any more.
  have hkill : ∀ target, run ∈ (manager.kill target).2.runs := by
    intro target
    rcases manager.kill_cases target with heq | ⟨asked, hasked, hrunning, -, heq⟩
    · rw [heq]
      exact hmem
    · rw [heq]
      refine hset _ fun hid => ?_
      obtain rfl := hflight.eq_of_id hmem (mem_of_findRun? hasked).1 hid
      rw [Job.isFinished, hrunning] at hfinished
      exact absurd hfinished Bool.false_ne_true
  cases hstep with
  | call => exact List.mem_append_left _ hmem
  | take changed | skip changed | refuse changed | stopOther changed | resume changed
  | conclude changed | concludeMissing changed | finish changed | leave changed =>
      exact hset _ fun hid => hother (congrArg some hid.symm)
  | replace changed target =>
      exact mem_setRun_iff.2 (.inr ⟨hkill target, fun hid => hother (congrArg some hid.symm)⟩)
  | job changed action job told =>
      rw [runs_reportAll]
      exact hset _ fun hid => hother (congrArg some hid.symm)
  | callStop | look | stopReturns => exact hmem
  | stop index target => exact hkill target

/-- A finished job tells nothing or its exit, at which the pending blocks are read. -/
theorem mayTell_job (horderly : run.Orderly) (hcoherent : run.job.Coherent)
    (hfinished : run.job.isFinished = true) {job : Job} {jobAction : Job.Action}
    {callbacks : List Job.Callback} (hstep : Job.Step run.job jobAction job callbacks)
    (directory : Path) {told : List Output}
    (h : MayTell { run with job, observer := (run.observer.observeAll callbacks).1 } told) :
    MayTell run
      ((manager.reportAll directory (run.observer.observeAll callbacks).2).2 ++ told) := by
  rcases hstep.of_isFinished hcoherent hfinished with
    ⟨hpoint, rfl⟩ | ⟨outcome, hsettled, hreturned, rfl⟩
  · exact mayTell_congr h rfl hpoint.symm rfl
  · obtain ⟨missing, status, rfl, hmissing, hstatus⟩ := mayTell_returned h hreturned
    have hreports : (run.observer.observeAll [.exited outcome]).2
        = (run.observer.observe (.exited outcome)).2 := List.append_nil _
    obtain ⟨hpublish, hquiet⟩ := horderly.quiet.observe_exited outcome
    rw [hreports]
    obtain ⟨read, hread⟩ := reportAll_publish directory hpublish manager
    refine ⟨read, missing, status, ?_, fun hsome => ⟨?_, outcome, hsettled⟩, hmissing, hstatus⟩
    · rw [hread, endings, endings, List.append_assoc, List.append_assoc]
      rfl
    · by_contra hmode
      rw [hquiet hmode] at hread
      exact hsome (List.map_eq_nil_iff.1 hread.symm)

/-- A call whose job is finished tells one of its endings, or nothing. -/
theorem mayTell_of_step (hflight : SingleFlight manager) (horderly : run.Orderly)
    (hstep : Step manager action next outputs) (hmem : run ∈ manager.runs)
    (hfinished : run.job.isFinished = true) (htaken : run.HasTaken)
    (hown : action.run? = some run.id) :
    ∃ after ∈ next.runs, after.id = run.id ∧ after.job.isFinished = true ∧ after.HasTaken ∧
      ∀ told, MayTell after told → MayTell run (outputs ++ told) := by
  have hsame : ∀ acting : Run, manager.findRun? acting.id = some acting →
      some acting.id = some run.id → acting = run := fun acting hacting hid =>
    hflight.eq_of_id (mem_of_findRun? hacting).1 hmem (Option.some.inj hid)
  cases hstep with
  | call | callStop | look | stop | stopReturns => exact nomatch hown
  | take acting hacting hpoint | skip acting _ hacting hpoint | refuse acting _ hacting hpoint
  | stopOther acting _ hacting hpoint | resume acting _ hacting hpoint
  | replace acting _ hacting hpoint =>
      obtain rfl := hsame acting hacting hown
      rcases htaken with hexecuting | hconcluded
      · exact nomatch hpoint.symm.trans hexecuting
      · rw [hpoint] at hconcluded
        exact nomatch hconcluded
  | job acting jobAction job callbacks hacting _ _ hstep =>
      obtain rfl := hsame acting hacting hown
      have hjob := Job.Step.of_step? hstep
      refine ⟨{ acting with job, observer := (acting.observer.observeAll callbacks).1 }, ?_, rfl,
        ?_, htaken, fun told h =>
          mayTell_job horderly (hflight.coherent acting hmem) hfinished hjob _ h⟩
      · rw [runs_reportAll]
        exact mem_setRun hmem rfl
      · have hmoves := (hjob.section (hflight.coherent acting hmem)).moves
        show job.control.state.isFinished = true
        rw [hmoves.eq_of_finished hfinished]
        exact hfinished
  | conclude acting result hacting hpoint =>
      obtain rfl := hsame acting hacting hown
      refine ⟨_, mem_setRun hmem rfl, rfl, hfinished, .inr rfl, ?_⟩
      rintro told ⟨updates, missing, status, rfl, hupdates, -⟩
      exact ⟨updates, missing, status, rfl, hupdates, fun _ => hpoint, fun _ => .inl hpoint⟩
  | concludeMissing acting result program hacting hpoint hresult =>
      obtain rfl := hsame acting hacting hown
      have hreturned := Job.point_of_result? hresult
      refine ⟨_, mem_setRun hmem rfl, rfl, hfinished, .inr rfl, fun told h => ?_⟩
      obtain ⟨status, rfl, -⟩ := mayTell_concluded h hreturned nofun
      exact ⟨[], some program, status, rfl, fun h => absurd rfl h, fun _ => hpoint,
        fun _ => .inl hpoint⟩
  | finish acting status hacting hpoint =>
      obtain rfl := hsame acting hacting hown
      obtain ⟨_, hreturned⟩ := horderly.returned (by rw [hpoint]; rfl)
      refine ⟨_, mem_setRun hmem rfl, rfl, hfinished, .inr rfl, fun told h => ?_⟩
      obtain rfl := mayTell_over h hreturned nofun nofun
      exact ⟨[], none, some status, rfl, fun h => absurd rfl h, fun h => absurd rfl h,
        fun _ => .inr ⟨status, hpoint⟩⟩
  | leave acting status hacting hpoint =>
      obtain rfl := hsame acting hacting hown
      obtain ⟨_, hreturned⟩ := horderly.returned (by rw [hpoint]; rfl)
      refine ⟨_, mem_setRun hmem rfl, rfl, hfinished, .inr rfl, fun told h => ?_⟩
      obtain rfl := mayTell_over h hreturned nofun nofun
      exact mayTell_nil acting

/-- What a call told in some events. -/
def toldBy (id : Nat) (events : List (Machine.Event BuildManager Action Output)) : List Output :=
  events.flatMap fun event => if event.action.run? = some id then event.told else []

/-- From the end of its job on a call tells its endings and nothing else. -/
theorem mayTell_trace (hflight : SingleFlight manager)
    (horderly : ∀ run ∈ manager.runs, run.Orderly) (hmem : run ∈ manager.runs)
    (hfinished : run.job.isFinished = true) (htaken : run.HasTaken) (actions : List Action) :
    MayTell run (toldBy run.id (Machine.trace step? manager actions)) := by
  induction actions generalizing manager run with
  | nil => exact mayTell_nil run
  | cons action actions ih =>
      cases hfirst : manager.step? action with
      | none =>
          rw [Machine.trace, hfirst]
          exact mayTell_nil run
      | some reply =>
          obtain ⟨next, outputs⟩ := reply
          have hstep := Step.of_step? hfirst
          have hnext := hflight.step hstep
          have horderly' := orderly_step hflight horderly hstep
          rw [Machine.trace_cons step? hfirst, toldBy, List.flatMap_cons]
          by_cases hown : action.run? = some run.id
          · obtain ⟨after, hafter, hid, hended, htaken', htell⟩ :=
              mayTell_of_step hflight (horderly run hmem) hstep hmem hfinished htaken hown
            rw [if_pos hown, ← hid]
            exact htell _ (ih hnext horderly' hafter hended htaken')
          · rw [if_neg hown]
            exact ih hnext horderly' (mem_of_step_other hflight hstep hmem hfinished hown) hfinished
              htaken

/-- While another build runs, the job of a call that has taken the slot is finished. -/
theorem SingleFlight.isFinished_of_other (h : SingleFlight manager) {newer : Run}
    (hnewer : newer ∈ manager.runs) (hrunning : newer.job.isRunning = true)
    (hmem : run ∈ manager.runs) (hne : run.id ≠ newer.id) (htaken : run.HasTaken) :
    run.job.isFinished = true := by
  have hslot := h.slot_of_isRunning hnewer hrunning
  have hfits := h.fits run hmem
  rcases htaken with hpoint | hconcluded
  · rw [hpoint] at hfits
    by_contra hopen
    have hown := hfits (Bool.eq_false_iff.2 hopen)
    simp only [hslot, Option.some.injEq, Slot.mk.injEq] at hown
    exact hne hown.1.symm
  · match hpoint : run.point, hfits with
    | .finishing _, hfits | .leaving _, hfits | .returned (.finished _), hfits => exact hfits
    | .choosing, _ | .stopping _, _ | .awaiting _, _ | .executing, _ | .returned .skipped, _
    | .returned (.busy _), _ =>
        rw [hpoint] at hconcluded
        exact nomatch hconcluded

/-- A build starts: what was known before is gone, this is told, and its job runs. -/
theorem of_announce {id : Nat} (hflight : SingleFlight manager)
    (hstep : Step manager (.job id .announce) next outputs) :
    next.collection = .empty ∧
      (∃ commandLine, outputs = [.update .clear, .event (.started commandLine)]) ∧
      ∃ run ∈ next.runs, run.id = id ∧ run.job.isRunning = true := by
  cases hstep with
  | job run action job told hrun _ _ hstep =>
      have hmem := (mem_of_findRun? hrun).1
      cases Job.Step.of_step? hstep with
      | announce hentered =>
          have hrunning : run.job.control.state = .running :=
            ((hflight.coherent run hmem).fits_at hentered).1
          refine ⟨rfl, ⟨run.observer.commandLine, rfl⟩, _, mem_setRun hmem rfl, rfl, ?_⟩
          show (run.job.control.state == .running) = true
          rw [hrunning]
          rfl

/-- In these events a build that had started was followed by nothing of an earlier one. -/
def Separate (events : List (Machine.Event BuildManager Action Output)) : Prop :=
  ∀ past start later newer, events = past ++ start :: later →
    start.action = .job newer .announce →
    ∀ old ∈ start.after.runs, old.id ≠ newer → old.HasTaken → toldBy old.id later = []

/-- A build has started: the diagnostics of earlier ones are gone and its start is told. An earlier
build, which has taken the slot before, then tells no line of output any more. It may still tell
what was pending in its blocks, that the tool is not there, and how it ended, each once and in this
order, as far as it had not come to that yet; when it had told its end it tells nothing. -/
theorem told_after_start {settings : BuildSettings} {env : Environment} {actions : List Action}
    {past later : List (Machine.Event BuildManager Action Output)}
    {start : Machine.Event BuildManager Action Output} {newer : Nat}
    (htrace : Machine.trace step? (ofSettings settings env) actions = past ++ start :: later)
    (hstart : start.action = .job newer .announce) :
    start.after.collection = .empty ∧
    (∃ commandLine, start.told = [.update .clear, .event (.started commandLine)]) ∧
    ∀ old ∈ start.after.runs, old.id ≠ newer → old.HasTaken →
      MayTell old (toldBy old.id later) ∧
      (old.point ≠ .executing → (∀ status, old.point ≠ .finishing status) →
        toldBy old.id later = []) := by
  have hkeep : ∀ manager action next outputs,
      (SingleFlight manager ∧ ∀ run ∈ manager.runs, run.Orderly) →
      step? manager action = some (next, outputs) →
      SingleFlight next ∧ ∀ run ∈ next.runs, run.Orderly := fun _ _ _ _ h hstep =>
    ⟨h.1.step (.of_step? hstep), orderly_step h.1 h.2 (.of_step? hstep)⟩
  have hinitial : SingleFlight (ofSettings settings env) ∧
      ∀ run ∈ (ofSettings settings env).runs, run.Orderly :=
    ⟨.initial settings env, fun _ hrun => absurd hrun List.not_mem_nil⟩
  have hmem : start ∈ Machine.trace step? (ofSettings settings env) actions := by
    rw [htrace]
    exact List.mem_append_right _ List.mem_cons_self
  obtain ⟨hbefore, hfirst⟩ := Machine.of_mem_trace step? hkeep hinitial hmem
  obtain ⟨hafter, horderly⟩ := hkeep _ _ _ _ hbefore hfirst
  obtain ⟨rest, rfl⟩ := Machine.exists_trace_of_append step? htrace
  have hstep := Step.of_step? hfirst
  rw [hstart] at hstep
  obtain ⟨hempty, htold, run, hrun, hid, hrunning⟩ := of_announce hbefore.1 hstep
  refine ⟨hempty, htold, fun old hold hne htaken => ?_⟩
  have hfinished := hafter.isFinished_of_other hrun hrunning hold (by rwa [hid]) htaken
  have hmay := mayTell_trace hafter horderly hold hfinished htaken rest
  refine ⟨hmay, fun hexecuting hfinishing => ?_⟩
  obtain ⟨result, hreturned⟩ := (horderly old hold).returned (htaken.resolve_left hexecuting)
  exact mayTell_over hmay hreturned hexecuting hfinishing

/-- A build that reads blocks gives way when its job is settled. The newer one starts before the
last block is read, so a diagnostic of the older one comes into the cleared collection, and after
it the end of the older one is told. -/
theorem not_separate :
    let settings : BuildSettings := { BuildSettings.standard with outputMode := .human }
    let invocation : Invocation := ⟨"build", [], ⟨"/w"⟩⟩
    let block := Text.Utf8.encode "error: boom\n --> a.rs:1:2\n".toList
    let before : List Action :=
      [.call invocation, .choose 1, .job 1 .execute, .job 1 .announce, .job 1 (.spawn (.ok 7)),
        .job 1 .recordPid, .job 1 (.takePipes none), .job 1 (.write .err block),
        .job 1 (.read .err 26), .job 1 .dispatch, .job 1 .dispatch, .job 1 (.close .out),
        .job 1 (.close .err), .job 1 (.childEnds (some 1)), .job 1 (.readEnd .out),
        .job 1 (.readEnd .err), .job 1 (.reap none), .job 1 .sweep, .job 1 .drain, .job 1 .settle,
        .call invocation, .choose 2, .job 2 .execute]
    let later : List Action := [.job 1 .reportExit, .conclude 1, .finish 1]
    ¬ Separate (Machine.trace step? (ofSettings settings [])
      (before ++ .job 2 .announce :: later)) := by
  intro settings invocation block before later hseparate
  have hhistory : (((ofSettings settings []).run? before).elim false fun middle =>
      (middle.1.step? (.job 2 .announce)).elim false fun started =>
        (started.1.runs.any fun run => run.id == 1 && (run.point matches .executing)) &&
          toldBy 1 (Machine.trace step? started.1 later)
            == endings [.set ⟨"/w/a.rs"⟩ [⟨⟨0, 1, 0, 1⟩, .error, "boom", none⟩]] none
              (some (.failed (some 1)))) = true := by
    decide +kernel
  cases hbefore : (ofSettings settings []).run? before with
  | none =>
      rw [hbefore] at hhistory
      exact nomatch hhistory
  | some middle =>
      rw [hbefore] at hhistory
      cases hstart : middle.1.step? (.job 2 .announce) with
      | none => simp [hstart] at hhistory
      | some started =>
          simp only [Option.elim_some, hstart, Bool.and_eq_true, List.any_eq_true, beq_iff_eq]
            at hhistory
          obtain ⟨⟨old, hold, hid, hpoint⟩, htold⟩ := hhistory
          have hexecuting : old.point = .executing := by
            split at hpoint
            · assumption
            · exact nomatch hpoint
          have hnone := hseparate (Machine.trace step? (ofSettings settings []) before)
            ⟨middle.1, .job 2 .announce, started.1, started.2⟩
            (Machine.trace step? started.1 later) 2
            ((Machine.trace_append step? hbefore _).trans
              (congrArg _ (Machine.trace_cons step? hstart)))
            rfl old hold (by rw [hid]; decide) (.inl hexecuting)
          rw [hid, htold] at hnone
          exact nomatch hnone

end BuildManager

end Toolbench
