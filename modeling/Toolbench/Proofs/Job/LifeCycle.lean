import Toolbench.Proofs.Job.Coherence
import Toolbench.Proofs.Trace

/-!
# The life of a job

A job begins to run once and ends once, and whoever was allowed to ask it to end sees it
interrupted, in whatever order the process, its outputs and the calls take their turns.
`LifeCycle` lists what is promised after a history; `life_cycle` proves it of every history. Each
promise about the past is a mark that an action leaves at the executing call or at the process
(`Point.isObstructed`, `Point.hasWaited`, `Point.exit?`).
-/

namespace Toolbench.Job

open Machine (Event trace)

/-- The event is a call that asks the job to end and is allowed to. -/
def asks (event : Event Job Action Callback) : Bool :=
  !event.before.control.interrupted && event.after.control.interrupted

/-- The command cannot be run: there is no process, or one without an output. -/
def Action.isObstacle : Action → Bool
  | .spawn (.error _) | .takePipes (some _) => true
  | _ => false

/-- The call has found that the command cannot be run. -/
def Point.isObstructed : Point → Bool
  | .abandoning _ | .returned (.error (.spawn _ _)) | .returned (.error (.missingPipe _)) => true
  | _ => false

/-- The call has waited for the process, and it will not report a failure to wait. -/
def Point.hasWaited : Point → Bool
  | .reaped (.ok _) | .draining (.ok _) | .drained (.ok _) | .settled _ | .returned (.ok _) => true
  | _ => false

/-- The outcome that the observer is told of. -/
def Callback.exit? : Callback → Option Outcome
  | .exited outcome => some outcome
  | _ => none

/-- The outcomes that the executing call has returned. -/
def outcomes (job : Job) : List Outcome :=
  (job.result?.bind Except.toOption).toList

/-- The state of a job whose call returned this. -/
def stateOf : Except Failure Outcome → State
  | .ok outcome => outcome.state
  | .error _ => .failed

/-- What is promised of a job after a history that began when the job was made. -/
structure LifeCycle (command : Command) (actions : List Action) (job : Job)
    (told : List Callback) : Prop where
  /-- The job runs once, after it was idle, and then ends once. -/
  moves : ∀ event ∈ trace step? (ofCommand command) actions,
    event.before.control.state.Moves event.after.control.state
  /-- Nothing that happens later changes how the job ended. -/
  final : job.control.state.isFinished = true → ∀ more later toldLater,
    job.run? more = some (later, toldLater) → later.control.state = job.control.state
  /-- The job is asked to end at most once. -/
  askedOnce : ((trace step? (ofCommand command) actions).filter asks).length ≤ 1
  /-- It is asked only by a call to do so, and only while it runs. -/
  askedRunning : ∀ event ∈ trace step? (ofCommand command) actions, asks event = true →
    event.action = .kill ∧ event.before.control.state = .running
  /-- A job that was asked ends interrupted, unless its command could not be run. -/
  interrupted : (∃ event ∈ trace step? (ofCommand command) actions, asks event = true) →
    job.control.state.isFinished = true →
      job.control.state = if actions.any Action.isObstacle then .failed else .interrupted
  /-- A job that was not asked, and whose process was waited for, ends with the exit code with
  which the process ended. -/
  completed : (∀ event ∈ trace step? (ofCommand command) actions, asks event = false) →
    Action.reap none ∈ actions → job.control.state.isFinished = true →
      ∃ code, job.control.state = .completed code ∧
        ∀ other, Action.childEnds other ∈ actions ↔ other = code
  /-- The state is that of the value which the call returned. -/
  returned : ∀ result, job.result? = some result → job.control.state = stateOf result
  /-- The observer is told the outcome that the call returns, once, and no other. -/
  exited : told.filterMap Callback.exit? = job.outcomes
  /-- After the first call to execute the job, every other one fails and does nothing. -/
  once : Action.execute ∈ actions ↔ job.enter = .error .alreadyStarted
  refused : Action.execute ∈ actions → job.step? .execute = some (job, [])

variable {job next : Job} {action : Action} {told : List Callback}

namespace Step

/-- What keeps the command from running leaves its mark at the call. -/
theorem isObstructed_iff (h : Step job action next told) (hjob : job.Coherent) :
    next.point.isObstructed = true ↔
      job.point.isObstructed = true ∨ action.isObstacle = true := by
  have hfits : job.point.Fits job.control job.child := hjob
  cases h with
  | execute hidle => simp [hfits.eq_idle hidle, Point.isObstructed, Action.isObstacle]
  | announce hpoint | spawn _ hpoint | spawnFails _ hpoint | recordPid _ hpoint
  | takePipes hpoint | pipeMissing _ hpoint | abandon _ _ hpoint | reap _ hpoint
  | reapFails _ hpoint | sweep _ hpoint | drain _ hpoint | giveUp _ hpoint
  | settle _ _ _ hpoint | settleFails _ _ _ hpoint | reportExit _ hpoint =>
      simp [hpoint, Point.isObstructed, Action.isObstacle]
  | _ => simp [Action.isObstacle]

/-- The end of the process is seen at the process. -/
theorem ended_iff (h : Step job action next told) (hjob : job.Coherent) (code : Option Int) :
    next.child = .ended code ↔ job.child = .ended code ∨ action = .childEnds code := by
  cases h with
  | spawn _ hpoint => simp [(hjob.fits_at hpoint).2]
  | childEnds _ _ hchild => simp [hchild]
  | _ => simp

/-- That the process was waited for leaves its mark at the call. -/
theorem hasWaited (h : Step job action next told) (hjob : job.Coherent)
    (hmark : job.point.hasWaited = true ∨ action = .reap none) : next.point.hasWaited = true := by
  have hfits : job.point.Fits job.control job.child := hjob
  cases h with
  | execute hidle => simp [hfits.eq_idle hidle, Point.hasWaited] at hmark
  | reap | settle | reportExit => rfl
  | announce hpoint | spawn _ hpoint | spawnFails _ hpoint | recordPid _ hpoint
  | takePipes hpoint | pipeMissing _ hpoint | abandon _ _ hpoint | reapFails _ hpoint =>
      simp [hpoint, Point.hasWaited] at hmark
  | sweep waited hpoint | drain waited hpoint | giveUp waited hpoint =>
      cases waited with
      | ok code => rfl
      | error cause => simp [hpoint, Point.hasWaited] at hmark
  | settleFails waited cause control hpoint hsettle =>
      -- A failure to wait is reported only of a process that was not waited for.
      cases waited with
      | ok code =>
          obtain ⟨outcome, houtcome⟩ := job.control.settle_ok_eq_ok code
          rw [hsettle] at houtcome
          exact nomatch houtcome
      | error cause => simp [hpoint, Point.hasWaited] at hmark
  | executeAgain => simpa using hmark
  | _ => simpa using hmark

/-- The observer is told what the call returns, in the same step. -/
theorem outcomes (h : Step job action next told) (hjob : job.Coherent) :
    next.outcomes = job.outcomes ++ told.filterMap Callback.exit? := by
  have hfits : job.point.Fits job.control job.child := hjob
  cases h with
  | execute hidle => simp [Job.outcomes, result?, hfits.eq_idle hidle]
  | announce hpoint | spawn _ hpoint | spawnFails _ hpoint | recordPid _ hpoint
  | takePipes hpoint | pipeMissing _ hpoint | abandon _ _ hpoint | reap _ hpoint
  | reapFails _ hpoint | sweep _ hpoint | drain _ hpoint | giveUp _ hpoint
  | settle _ _ _ hpoint | settleFails _ _ _ hpoint | reportExit _ hpoint =>
      simp [Job.outcomes, result?, hpoint, Callback.exit?, Except.toOption]
  | _ => simp [Job.outcomes, result?, Callback.exit?]

/-- Only a call to end the job asks it to end. -/
theorem eq_kill_of_asked (h : Step job action next told) (hold : job.control.interrupted = false)
    (hnew : next.control.interrupted = true) : action = .kill := by
  cases h with
  | kill => rfl
  | settle waited _ control _ hsettle | settleFails waited _ control _ hsettle =>
      obtain rfl : control = (job.control.settle waited).2 := by rw [hsettle]
      exact nomatch hold.symm.trans hnew
  | write | close | read | readEnd =>
      simp only [setLane_control] at hnew
      exact nomatch hold.symm.trans hnew
  | _ => exact nomatch hold.symm.trans hnew

end Step

namespace Coherent

/-- A job that was asked to end and has ended is interrupted, unless its command could not be
run. -/
theorem state_of_interrupted (h : job.Coherent) (hfinished : job.control.state.isFinished = true)
    (hflag : job.control.interrupted = true) :
    job.control.state = if job.point.isObstructed then .failed else .interrupted := by
  cases hpoint : job.point with
  | idle =>
      rw [(h.fits_at hpoint).1] at hflag
      exact nomatch hflag
  | entered | announced | reaped | draining | drained =>
      rw [(h.fits_at hpoint).1] at hfinished
      exact nomatch hfinished
  | spawned | recorded | abandoning | looping =>
      rw [show job.control.state = .running from h.fits_at hpoint] at hfinished
      exact nomatch hfinished
  | settled outcome =>
      have hfits := h.fits_at hpoint
      rw [hfits.state, hfits.interrupted.1 hflag]
      rfl
  | returned result =>
      match result, h.fits_at hpoint with
      | .ok outcome, hfits =>
          rw [hfits.state, hfits.interrupted.1 hflag]
          rfl
      | .error (.spawn _ _), hfits | .error (.missingPipe _), hfits => exact hfits.state
      | .error .alreadyStarted, hfits => exact absurd rfl hfits.ran
      | .error (.wait program cause), hfits =>
          exact nomatch hflag.symm.trans (hfits.notAsked program cause rfl)

/-- A job that was not asked to end and whose process was waited for ends with the exit code of
the process. -/
theorem state_of_hasWaited (h : job.Coherent) (hfinished : job.control.state.isFinished = true)
    (hflag : job.control.interrupted = false) (hwaited : job.point.hasWaited = true) :
    ∃ code, job.control.state = .completed code ∧ job.child = .ended code := by
  have hfits : job.point.Fits job.control job.child := h
  -- Whether the call has returned or not, what it decided fits the control.
  have hdecided : ∀ outcome : Outcome, outcome.Fits job.control job.child →
      ∃ code, job.control.state = .completed code ∧ job.child = .ended code := by
    intro outcome houtcome
    cases outcome with
    | completed code => exact ⟨code, houtcome.state, houtcome.code code rfl⟩
    | interrupted => exact nomatch hflag.symm.trans (houtcome.interrupted.2 rfl)
  match hpoint : job.point, hfits with
  | .reaped _, hfits | .draining _, hfits | .drained _, hfits =>
      rw [hfits.1] at hfinished
      exact nomatch hfinished
  | .settled outcome, hfits | .returned (.ok outcome), hfits => exact hdecided outcome hfits
  | .idle, _ | .entered, _ | .announced, _ | .spawned _, _ | .recorded, _ | .abandoning _, _
  | .looping, _ | .returned (.error _), _ =>
      rw [hpoint] at hwaited
      exact nomatch hwaited

/-- What the call returned is what the state says. -/
theorem state_of_result? {result : Except Failure Outcome} (h : job.Coherent)
    (hresult : job.result? = some result) : job.control.state = stateOf result := by
  unfold result? at hresult
  split at hresult
  · rename_i hpoint
    cases hresult
    cases result with
    | ok outcome => exact (h.fits_at hpoint).state
    | error failure => exact (h.fits_at hpoint).state
  · exact nomatch hresult

end Coherent

/-- Every step keeps a job coherent. -/
theorem step?_coherent (job : Job) (action : Action) (next : Job) (told : List Callback)
    (hjob : job.Coherent) (h : job.step? action = some (next, told)) : next.Coherent :=
  (Step.of_step? h).coherent hjob

/-- Every event of a job is a step of a coherent job. -/
theorem step_of_mem_trace {actions : List Action} {event : Event Job Action Callback}
    (hjob : job.Coherent) (h : event ∈ trace step? job actions) :
    event.before.Coherent ∧ Step event.before event.action event.after event.told := by
  obtain ⟨hbefore, hstep⟩ := Machine.of_mem_trace step? step?_coherent hjob h
  exact ⟨hbefore, .of_step? hstep⟩

/-- The calls that were allowed to ask a job to end are counted by its flag. -/
theorem count_asks {actions : List Action} (hjob : job.Coherent)
    (hflag : job.control.interrupted = false) (hrun : job.run? actions = some (next, told)) :
    ((trace step? job actions).filter asks).length = next.control.interrupted.toNat := by
  have hinvariant := Machine.run?_trace_invariant step?
    (P := fun past job =>
      job.Coherent ∧ (past.filter asks).length = job.control.interrupted.toNat)
    (fun past job action next told hpast hstep => ?_) hrun ⟨hjob, by simp [hflag]⟩
  · exact hinvariant.2
  · obtain ⟨hcoherent, hcount⟩ := hpast
    have hsteps := Step.of_step? hstep
    refine ⟨hsteps.coherent hcoherent, ?_⟩
    rw [List.filter_append, List.length_append, hcount]
    -- Once the flag is up nobody takes it down, so no later call is counted.
    cases hold : job.control.interrupted with
    | true =>
        have hnew := (hsteps.section hcoherent).interrupted_mono hold
        simp [asks, hold, hnew]
    | false => cases hnew : next.control.interrupted <;> simp [asks, hold, hnew]

/-- A job was asked to end when some call was allowed to ask. -/
theorem interrupted_iff_exists_asks {actions : List Action} (hjob : job.Coherent)
    (hflag : job.control.interrupted = false) (hrun : job.run? actions = some (next, told)) :
    next.control.interrupted = true ↔ ∃ event ∈ trace step? job actions, asks event = true := by
  have hcount := count_asks hjob hflag hrun
  cases hnew : next.control.interrupted with
  | true =>
      rw [hnew] at hcount
      refine iff_of_true rfl ?_
      obtain ⟨event, hevent⟩ := List.exists_mem_of_length_pos
        (l := (trace step? job actions).filter asks) (by rw [hcount]; decide)
      exact ⟨event, List.mem_filter.1 hevent⟩
  | false =>
      rw [hnew] at hcount
      refine iff_of_false nofun fun ⟨event, hmem, hasks⟩ => ?_
      have hnone := List.eq_nil_of_length_eq_zero hcount
      exact absurd (List.mem_filter.2 ⟨hmem, hasks⟩) (by rw [hnone]; exact List.not_mem_nil)

/-- Nothing that happens to an ended job changes its state. -/
theorem state_run_of_finished {actions : List Action} (hjob : job.Coherent)
    (hfinished : job.control.state.isFinished = true) (hrun : job.run? actions = some (next, told)) :
    next.control.state = job.control.state := by
  have hkept := Machine.run?_keeps step?
    (P := fun now => now.Coherent ∧ now.control.state = job.control.state)
    (fun now action next told hnow h => ?_) hrun ⟨hjob, rfl⟩
  · exact hkept.2
  · have hmoves := ((Step.of_step? h).section hnow.1).moves
    exact ⟨step?_coherent _ _ _ _ hnow.1 h,
      (hmoves.eq_of_finished (hnow.2 ▸ hfinished)).trans hnow.2⟩

/-! ## Histories from the making of a job -/

section Histories

variable {command : Command} {actions : List Action}
  (hrun : (ofCommand command).run? actions = some (job, told))
include hrun

/-- A job is coherent after every history. -/
theorem coherent_run : job.Coherent :=
  Machine.run?_keeps step? step?_coherent hrun (coherent_ofCommand command)

/-- A job is idle until it is executed. -/
theorem started_run : job.control.state ≠ .idle ↔ Action.execute ∈ actions := by
  rw [Machine.run?_mark_iff step? (Q := fun job => job.control.state ≠ .idle)
    (M := fun action => action = .execute) step?_coherent
    (fun job action next told hjob h => (Step.of_step? h).started_iff hjob) hrun
    (coherent_ofCommand command)]
  simp [ofCommand, Control.idle]

/-- The call knows whether the command could be run. -/
theorem isObstructed_run : job.point.isObstructed = actions.any Action.isObstacle := by
  rw [Bool.eq_iff_iff, Machine.run?_mark_iff step? (Q := fun job => job.point.isObstructed = true)
    (M := fun action => action.isObstacle = true) step?_coherent
    (fun job action next told hjob h => (Step.of_step? h).isObstructed_iff hjob) hrun
    (coherent_ofCommand command)]
  simp [ofCommand, Point.isObstructed]

/-- The process has the exit code with which it ended. -/
theorem child_run (code : Option Int) :
    job.child = .ended code ↔ Action.childEnds code ∈ actions := by
  rw [Machine.run?_mark_iff step? (Q := fun job => job.child = .ended code)
    (M := fun action => action = .childEnds code) step?_coherent
    (fun job action next told hjob h => (Step.of_step? h).ended_iff hjob code) hrun
    (coherent_ofCommand command)]
  simp [ofCommand]

/-- The call knows that the process was waited for. -/
theorem hasWaited_run (hreap : Action.reap none ∈ actions) : job.point.hasWaited = true :=
  Machine.run?_mark step? (Q := fun job => job.point.hasWaited = true)
    (M := fun action => action = .reap none) step?_coherent
    (fun _ _ _ _ hjob h => (Step.of_step? h).hasWaited hjob) hrun
    (coherent_ofCommand command) (.inr ⟨_, hreap, rfl⟩)

/-- The observer is told the outcomes that the call returns. -/
theorem outcomes_run : told.filterMap Callback.exit? = job.outcomes := by
  have hinvariant := Machine.run?_trace_invariant step?
    (P := fun past job =>
      job.Coherent ∧ (past.flatMap Event.told).filterMap Callback.exit? = job.outcomes)
    (fun _ _ _ _ _ hpast h => ?_) hrun ⟨coherent_ofCommand command, rfl⟩
  · rw [Machine.told_eq_flatMap_trace step? hrun]
    exact hinvariant.2
  · have hstep := Step.of_step? h
    refine ⟨hstep.coherent hpast.1, ?_⟩
    rw [hstep.outcomes hpast.1, ← hpast.2]
    simp

end Histories

/-- However calls, signals, outputs and the end of the process take their turns, a job lives as
`LifeCycle` says. -/
theorem life_cycle {command : Command} {actions : List Action} {job : Job} {told : List Callback}
    (hrun : (ofCommand command).run? actions = some (job, told)) :
    LifeCycle command actions job told := by
  have hstart := coherent_ofCommand command
  have hjob := coherent_run hrun
  have hasked := interrupted_iff_exists_asks hstart rfl hrun
  constructor
  case moves =>
    intro event hevent
    obtain ⟨hbefore, hstep⟩ := step_of_mem_trace hstart hevent
    exact (hstep.section hbefore).moves
  case final =>
    intro hfinished more later toldLater hmore
    exact state_run_of_finished hjob hfinished hmore
  case askedOnce =>
    have hcount : ((trace step? (ofCommand command) actions).filter asks).length
        = job.control.interrupted.toNat := count_asks hstart rfl hrun
    rw [hcount]
    exact Bool.toNat_le _
  case askedRunning =>
    intro event hevent hasks
    obtain ⟨hbefore, hstep⟩ := step_of_mem_trace hstart hevent
    simp only [asks, Bool.and_eq_true, Bool.not_eq_true'] at hasks
    exact ⟨hstep.eq_kill_of_asked hasks.1 hasks.2,
      (hstep.section hbefore).running_of_asked hasks.1 hasks.2⟩
  case interrupted =>
    intro hexists hfinished
    rw [← isObstructed_run hrun]
    exact hjob.state_of_interrupted hfinished (hasked.2 hexists)
  case completed =>
    intro hnone hreap hfinished
    have hflag : job.control.interrupted = false := by
      refine Bool.eq_false_iff.2 fun hflag => ?_
      obtain ⟨event, hevent, hasks⟩ := hasked.1 hflag
      exact nomatch hasks.symm.trans (hnone event hevent)
    obtain ⟨code, hstate, hchild⟩ :=
      hjob.state_of_hasWaited hfinished hflag (hasWaited_run hrun hreap)
    refine ⟨code, hstate, fun other => ?_⟩
    rw [← child_run hrun, hchild, Child.ended.injEq, eq_comm]
  case returned =>
    intro result hresult
    exact hjob.state_of_result? hresult
  case exited => exact outcomes_run hrun
  case once =>
    rw [← started_run hrun, enter, Control.enter?]
    by_cases hidle : job.control.state = .idle <;> simp [hidle]
  case refused =>
    intro hexecute
    simp [step?, enter, Control.enter?, (started_run hrun).2 hexecute]

/-- A job that is asked to end after the end of its process was seen, while another process still
holds its outputs open, is interrupted and not completed. -/
theorem life_cycle_asked_in_drain :
    let actions : List Action :=
      [.execute, .announce, .spawn (.ok 7), .recordPid, .takePipes none, .childEnds (some 0),
        .reap none, .kill, .execute, .kill, .sweep, .signal (.ok .notRunning), .giveUp, .settle,
        .reportExit, .killReturns]
    ∃ job told, (ofCommand (.ofProgram "cargo")).run? actions = some (job, told) ∧
      job.control.state = .interrupted ∧ told.filterMap Callback.exit? = [.interrupted] ∧
      LifeCycle (.ofProgram "cargo") actions job told := by
  intro actions
  have hlife := life_cycle
    (rfl : (ofCommand (.ofProgram "cargo")).run? actions = some (_, _))
  refine ⟨_, _, rfl, hlife.interrupted ⟨_, .tail _ (.tail _ (.tail _ (.tail _ (.tail _ (.tail _
    (.tail _ (.head _))))))), rfl⟩ rfl, hlife.exited, hlife⟩

end Toolbench.Job
