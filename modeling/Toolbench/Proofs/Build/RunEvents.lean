import Toolbench.Proofs.Build.Forwarding

/-!
# The events of one build

A run of a build tells its start, the lines of its tool, and its end, while other calls to the
manager come between. `Run.Recounts` ties the run to its job: the job has a history of its own, in
which calls that ask it to end stand between the actions of its parties, and what this history
told is what the run has passed on. `Step.recounts` says that no step of a manager breaks the tie,
and `events_of_runs` reads the events of whole runs off it.
-/

namespace Toolbench

namespace Job

/-- The action is a call that asks the job to end. -/
def Action.isKill : Action → Bool
  | .kill => true
  | _ => false

/-- What others do to a job without asking it to end. -/
def withoutKills (actions : List Action) : List Action :=
  actions.filter fun action => !action.isKill

@[simp] theorem withoutKills_concat (actions : List Action) (action : Action) :
    withoutKills (actions ++ [action])
      = withoutKills actions ++ if action.isKill then [] else [action] := by
  cases h : action.isKill <;> simp [withoutKills, h]

/-- An action that asks nobody to end is there with or without those that do. -/
theorem mem_withoutKills {actions : List Action} {action : Action}
    (h : action.isKill = false) : action ∈ withoutKills actions ↔ action ∈ actions := by
  simp [withoutKills, h]

/-- To ask a job to end writes nothing. -/
theorem written_withoutKills (stream : Stream) (actions : List Action) :
    written stream (withoutKills actions) = written stream actions := by
  induction actions with
  | nil => rfl
  | cons action actions ih =>
      show written stream ((action :: actions).filter _)
        = action.bytes stream ++ written stream actions
      rw [← ih, List.filter_cons]
      cases action with
      | _ => rfl

/-- A job that runs may be asked to end once. -/
theorem step?_kill {job : Job} (hrunning : job.control.state = .running)
    (hnew : job.control.interrupted = false) :
    job.step? .kill
      = some ({ job with
          control := { job.control with interrupted := true }
          killer := .accepted job.control.pid }, []) := by
  simp only [step?, killStep?, Control.acceptKill?, hrunning, hnew, and_self, if_true,
    Option.map_some]

end Job

namespace Build

open Job (Stream Callback)

/-- The action of a party of the job of one call. -/
def Action.job? (id : Nat) : Action → Option Job.Action
  | .job other action => if other = id then some action else none
  | _ => none

/-- What the parties of the job of one call do. -/
def jobActions (id : Nat) (actions : List Action) : List Job.Action :=
  actions.filterMap (Action.job? id)

/-- The event says that the tool is not there. -/
def Event.isMissing : Event → Bool
  | .toolMissing _ => true
  | _ => false

/-- How the build ended, when its call knows. -/
def RunPoint.status? : RunPoint → Option Status
  | .finishing status | .leaving status | .returned (.finished status) => some status
  | _ => none

/-- What a call has told about the end of its build. -/
def RunPoint.epilogue (missing : Option String) : RunPoint → List Event
  | .finishing _ => missing.toList.map .toolMissing
  | .leaving status | .returned (.finished status) =>
      missing.toList.map .toolMissing ++ [.finished status]
  | _ => []

/-- A call that does not know how its build ended has told nothing about it. -/
theorem RunPoint.epilogue_of_status? {point : RunPoint} {missing : Option String}
    (h : point.status? = none) : point.epilogue missing = [] := by
  match point, h with
  | .choosing, _ | .stopping _, _ | .awaiting _, _ | .executing, _ | .returned .skipped, _
  | .returned (.busy _), _ => rfl

/-- What is known of a call after the actions of the parties of its job and the events that it
told: its job has a history of its own, and what this history told is passed on. -/
structure Run.Recounts (settings : BuildSettings) (own : List Job.Action) (events : List Event)
    (run : Run) : Prop where
  command : run.commandLine = run.job.command.display
  mode : run.observer.mode = settings.outputMode
  commandLine : run.observer.commandLine = run.commandLine
  history : ∃ actions callbacks missing,
    (Job.ofCommand run.job.command).run? actions = some (run.job, callbacks) ∧
    Job.withoutKills actions = own ∧
    events = callbacks.flatMap (passedOn settings.outputMode run.commandLine)
      ++ run.point.epilogue missing ∧
    ∀ program, missing = some program → run.point.status? = some (.toolMissing program)
  status : ∀ status, run.point.status? = some status →
    ∃ result, run.job.result? = some result ∧ status = statusOf settings.tool result

namespace Run.Recounts

variable {settings : BuildSettings} {own : List Job.Action} {events : List Event} {run : Run}

/-- A call goes to another point, and tells what it tells there. -/
theorem goTo (h : run.Recounts settings own events) {before after : RunPoint} {told : List Event}
    (hpoint : run.point = before)
    (hepilogue : ∀ missing,
      (∀ program, missing = some program → before.status? = some (.toolMissing program)) →
      ∃ later, after.epilogue later = before.epilogue missing ++ told ∧
        ∀ program, later = some program → after.status? = some (.toolMissing program))
    (hstatus : ∀ status, after.status? = some status →
      ∃ result, run.job.result? = some result ∧ status = statusOf settings.tool result) :
    { run with point := after }.Recounts settings own (events ++ told) where
  command := h.command
  mode := h.mode
  commandLine := h.commandLine
  history := by
    obtain ⟨actions, callbacks, missing, hrun, hown, rfl, hmissing⟩ := h.history
    rw [hpoint] at hmissing ⊢
    obtain ⟨later, hlater, hnamed⟩ := hepilogue missing hmissing
    exact ⟨actions, callbacks, later, hrun, hown, by rw [hlater, List.append_assoc], hnamed⟩
  status := hstatus

/-- A call that does not know how its build ended goes on without knowing. -/
theorem goOn (h : run.Recounts settings own events) {before after : RunPoint}
    (hpoint : run.point = before) (hbefore : before.status? = none)
    (hafter : after.status? = none) : { run with point := after }.Recounts settings own events := by
  have hgone : Run.Recounts settings own (events ++ []) { run with point := after } := h.goTo hpoint
    (fun missing _ => ⟨none, by
      rw [RunPoint.epilogue_of_status? hafter, RunPoint.epilogue_of_status? hbefore]; rfl, nofun⟩)
    (fun status hstatus => nomatch hafter.symm.trans hstatus)
  rwa [List.append_nil] at hgone

/-- A party of the job acts, or a call asks it to end, and what the observer is told is passed
on. -/
theorem jobStep (h : run.Recounts settings own events) (hjob : run.job.Coherent)
    {action : Job.Action} {job : Job} {told : List Callback}
    (hstep : run.job.step? action = some (job, told)) :
    { run with job, observer := (run.observer.observeAll told).1 }.Recounts settings
      (own ++ if action.isKill then [] else [action])
      (events ++ told.flatMap (passedOn settings.outputMode run.commandLine)) := by
  obtain ⟨hmode, hcommandLine, -⟩ := run.observer.emitted_observeAll told
  have hrule := Job.Step.of_step? hstep
  -- When the call knows how its build ended, the job has told its exit and tells nothing more.
  have hover : ∀ status, run.point.status? = some status →
      job.result? = run.job.result? ∧ told = [] := by
    intro status hstatus
    obtain ⟨result, hresult, -⟩ := h.status status hstatus
    have hpoint := Job.point_of_result? hresult
    rcases hrule.of_isFinished hjob (hjob.isFinished_of_result? hresult) with
      ⟨hkept, rfl⟩ | ⟨outcome, hsettled, -⟩
    · exact ⟨by rw [Job.result?, Job.result?, hkept], rfl⟩
    · cases hpoint.symm.trans hsettled
  refine ⟨?_, hmode.trans h.mode, hcommandLine.trans h.commandLine, ?_, ?_⟩
  · show run.commandLine = job.command.display
    rw [hrule.command_eq]
    exact h.command
  · obtain ⟨actions, callbacks, missing, hrun, rfl, rfl, hmissing⟩ := h.history
    refine ⟨actions ++ [action], callbacks ++ told, missing, ?_, Job.withoutKills_concat _ _, ?_,
      hmissing⟩
    · show (Job.ofCommand job.command).run? _ = _
      rw [hrule.command_eq]
      exact Machine.run?_append Job.step? hrun
        ((Machine.run?_singleton Job.step? run.job action).trans hstep)
    · cases hstatus : run.point.status? with
      | none =>
          rw [RunPoint.epilogue_of_status? hstatus, List.append_nil, List.append_nil,
            List.flatMap_append]
      | some status =>
          rw [(hover status hstatus).2, List.append_nil, List.flatMap_nil, List.append_nil]
  · intro status hstatus
    rw [(hover status hstatus).1]
    exact h.status status hstatus

end Run.Recounts

end Build

namespace BuildManager

open Build

variable {manager next : BuildManager} {run : Run} {action : Action} {outputs : List Output}
  {settings : BuildSettings} {own own' : Nat → List Job.Action} {events events' : Nat → List Event}

/-- One call changes, and what it did and told is what it now has done and told. -/
theorem recounts_setRun
    (h : ∀ run ∈ manager.runs, run.Recounts settings (own run.id) (events run.id))
    (hrun : run.Recounts settings (own' run.id) (events' run.id))
    (hother : ∀ id, id ≠ run.id → own' id = own id ∧ events' id = events id) :
    ∀ other ∈ (manager.setRun run).runs,
      other.Recounts settings (own' other.id) (events' other.id) := by
  intro other hmem
  rcases mem_setRun_iff.1 hmem with ⟨rfl, -⟩ | ⟨hold, hne⟩
  · exact hrun
  · obtain ⟨hown, hevents⟩ := hother other.id hne
    rw [hown, hevents]
    exact h other hold

/-- To ask a build to end is no action of a party of its job, and nothing is told of it. -/
theorem recounts_kill (hflight : SingleFlight manager)
    (h : ∀ run ∈ manager.runs, run.Recounts settings (own run.id) (events run.id)) (target : Nat) :
    ∀ run ∈ (manager.kill target).2.runs,
      run.Recounts settings (own run.id) (events run.id) := by
  rcases manager.kill_cases target with heq | ⟨asked, hasked, hrunning, hnew, heq⟩
  · rw [heq]
    exact h
  · rw [heq]
    have hmem := (mem_of_findRun? hasked).1
    refine recounts_setRun h ?_ fun _ _ => ⟨rfl, rfl⟩
    have hstep := (h asked hmem).jobStep (hflight.coherent asked hmem)
      (Job.step?_kill hrunning hnew)
    simp only [Job.Action.isKill, if_true, List.flatMap_nil, List.append_nil] at hstep
    exact hstep

/-- What the parties of the job of a call have done after an action. -/
def ownAfter (own : Nat → List Job.Action) (action : Action) (id : Nat) : List Job.Action :=
  own id ++ (action.job? id).toList

/-- What a call has told after an action. -/
def eventsAfter (events : Nat → List Event) (action : Action) (outputs : List Output) (id : Nat) :
    List Event :=
  events id ++ if action.run? = some id then outputs.filterMap Output.event? else []

/-- When it is not the turn of a call, no party of its job acts. -/
theorem job?_eq_none {id : Nat} (h : action.run? ≠ some id) : action.job? id = none := by
  cases action with
  | job other action => exact if_neg fun heq => h (congrArg some heq)
  | _ => rfl

/-- When it is not its turn, a call does nothing and tells nothing. -/
theorem after_of_ne (own : Nat → List Job.Action) (events : Nat → List Event)
    (outputs : List Output) {id : Nat} (h : action.run? ≠ some id) :
    ownAfter own action id = own id ∧ eventsAfter events action outputs id = events id := by
  rw [ownAfter, job?_eq_none h, eventsAfter, if_neg h]
  exact ⟨List.append_nil _, List.append_nil _⟩

/-- When it is its turn and not that of its job, a call tells what is told. -/
theorem after_of_turn (own : Nat → List Job.Action) (events : Nat → List Event)
    (outputs : List Output) {id : Nat} (hturn : action.run? = some id)
    (hjob : action.job? id = none) :
    ownAfter own action id = own id ∧
      eventsAfter events action outputs id = events id ++ outputs.filterMap Output.event? := by
  rw [ownAfter, eventsAfter, hjob, if_pos hturn]
  exact ⟨List.append_nil _, rfl⟩

/-- The call whose turn it is goes on and tells what is told. -/
theorem recounts_of_turn
    (h : ∀ run ∈ manager.runs, run.Recounts settings (own run.id) (events run.id))
    (hturn : action.run? = some run.id) (hjob : action.job? run.id = none)
    (hrun : run.Recounts settings (own run.id)
      (events run.id ++ outputs.filterMap Output.event?)) :
    ∀ other ∈ (manager.setRun run).runs, other.Recounts settings (ownAfter own action other.id)
      (eventsAfter events action outputs other.id) := by
  refine recounts_setRun h ?_ fun id hne => after_of_ne own events _ ?_
  · obtain ⟨hown, hevents⟩ := after_of_turn own events outputs hturn hjob
    rw [hown, hevents]
    exact hrun
  · rw [hturn]
    exact fun heq => hne (Option.some.inj heq).symm

/-- An action that is nobody's turn leaves what the calls recount. -/
theorem recounts_of_none {runs : List Run} (hturn : action.run? = none)
    (h : ∀ run ∈ runs, run.Recounts settings (own run.id) (events run.id)) :
    ∀ run ∈ runs, run.Recounts settings (ownAfter own action run.id)
      (eventsAfter events action outputs run.id) := by
  intro run hrun
  have hother : action.run? ≠ some run.id := by
    rw [hturn]
    exact nofun
  obtain ⟨hown, hevents⟩ := after_of_ne own events outputs hother
  rw [hown, hevents]
  exact h run hrun

/-- Every call recounts what it did and told, after every step. -/
theorem Step.recounts (hflight : SingleFlight manager)
    (h : ∀ run ∈ manager.runs, run.Recounts manager.settings (own run.id) (events run.id))
    (hnew : own manager.nextId = [] ∧ events manager.nextId = [])
    (hstep : Step manager action next outputs) :
    ∀ run ∈ next.runs, run.Recounts manager.settings (ownAfter own action run.id)
      (eventsAfter events action outputs run.id) := by
  cases hstep with
  | call invocation =>
      refine recounts_of_none rfl fun run hrun => ?_
      rcases List.mem_append.1 hrun with hold | hlast
      · exact h run hold
      · rw [List.mem_singleton.1 hlast]
        show Run.Recounts manager.settings (own manager.nextId) (events manager.nextId) _
        rw [hnew.1, hnew.2]
        exact ⟨rfl, rfl, rfl, ⟨[], [], none, rfl, rfl, rfl, nofun⟩, nofun⟩
  | take run hrun hpoint | skip run _ hrun hpoint | refuse run _ hrun hpoint
  | stopOther run _ hrun hpoint | resume run _ hrun hpoint =>
      refine recounts_of_turn h rfl rfl ?_
      rw [List.filterMap_nil, List.append_nil]
      exact (h run (mem_of_findRun? hrun).1).goOn hpoint rfl rfl
  | replace run target hrun hpoint =>
      refine recounts_of_turn (recounts_kill hflight h target) rfl rfl ?_
      rw [List.filterMap_nil, List.append_nil]
      refine (h run (mem_of_findRun? hrun).1).goOn hpoint rfl ?_
      split <;> rfl
  | job run action job told hrun _ hkill hstep =>
      have hmem := (mem_of_findRun? hrun).1
      have hnot : action.isKill = false := by
        cases action with
        | kill => exact absurd rfl hkill
        | _ => rfl
      rw [runs_reportAll]
      refine recounts_setRun h ?_ fun id hne => after_of_ne own events _ ?_
      · have hgone := (h run hmem).jobStep (hflight.coherent run hmem) hstep
        obtain ⟨-, -, htold⟩ := run.observer.emitted_observeAll told
        rw [(h run hmem).mode, (h run hmem).commandLine] at htold
        show Run.Recounts manager.settings
          (own run.id ++ (Action.job? run.id (.job run.id action)).toList)
          (events run.id ++ if some run.id = some run.id then _ else []) _
        rw [if_pos rfl, events_reportAll, htold, Action.job?, if_pos rfl]
        rw [hnot] at hgone
        exact hgone
      · exact fun heq => hne (Option.some.inj heq).symm
  | conclude run result hrun hpoint hresult =>
      refine recounts_of_turn h rfl rfl ?_
      exact (h run (mem_of_findRun? hrun).1).goTo hpoint (fun _ _ => ⟨none, rfl, nofun⟩)
        fun status hstatus => ⟨result, hresult, (Option.some.inj hstatus).symm⟩
  | concludeMissing run result program hrun hpoint hresult hstatus =>
      refine recounts_of_turn h rfl rfl ?_
      refine (h run (mem_of_findRun? hrun).1).goTo hpoint (fun _ _ => ⟨some program, rfl, ?_⟩) ?_
      · intro other hother
        rw [← Option.some.inj hother]
        rfl
      · intro status hnamed
        exact ⟨result, hresult, by rw [hstatus, ← Option.some.inj hnamed]⟩
  | finish run status hrun hpoint | leave run status hrun hpoint =>
      have hmem := (mem_of_findRun? hrun).1
      refine recounts_of_turn h rfl rfl ?_
      refine (h run hmem).goTo hpoint (fun missing hmissing => ⟨missing, ?_, hmissing⟩)
        fun other hother => (h run hmem).status other (by rw [hpoint]; exact hother)
      simp [RunPoint.epilogue, Output.event?]
  | callStop | look | stopReturns => exact recounts_of_none rfl h
  | stop index target => exact recounts_of_none rfl (recounts_kill hflight h target)

/-! ## Histories -/

/-- The events that a call told among the events of a history. -/
def eventsBy (id : Nat) (past : List (Machine.Event BuildManager Action Output)) : List Event :=
  (toldBy id past).filterMap Output.event?

/-- What the parties of a job have done after one action more. -/
theorem jobActions_concat (id : Nat) (actions : List Action) (action : Action) :
    jobActions id (actions ++ [action]) = ownAfter (jobActions · actions) action id := by
  rw [jobActions, List.filterMap_append, ownAfter]
  cases hjob : action.job? id <;> simp [hjob, jobActions]

/-- What a call has told after one event more. -/
theorem eventsBy_concat (id : Nat) (past : List (Machine.Event BuildManager Action Output))
    (event : Machine.Event BuildManager Action Output) :
    eventsBy id (past ++ [event]) = eventsAfter (eventsBy · past) event.action event.told id := by
  rw [eventsBy, toldBy, List.flatMap_append, List.filterMap_append, eventsAfter]
  by_cases hturn : event.action.run? = some id <;> simp [hturn, eventsBy, toldBy]

/-- The call whose turn it is has begun. -/
theorem Step.turn_lt (hflight : SingleFlight manager) (hstep : Step manager action next outputs)
    {id : Nat} (hturn : action.run? = some id) : id < manager.nextId := by
  have hlt : ∀ acting : Run, manager.findRun? acting.id = some acting →
      some acting.id = some id → id < manager.nextId := fun acting hacting hid =>
    Option.some.inj hid ▸ hflight.numbered acting (mem_of_findRun? hacting).1
  cases hstep with
  | call | callStop | look | stopReturns | stop => exact nomatch hturn
  | replace run _ hrun | job run _ _ _ hrun | take run hrun | skip run _ hrun | refuse run _ hrun
  | stopOther run _ hrun | resume run _ hrun | conclude run _ hrun | concludeMissing run _ _ hrun
  | finish run _ hrun | leave run _ hrun =>
      exact hlt run hrun hturn

/-- What holds of the calls of a manager after the events of a history. -/
structure Chronicle (settings : BuildSettings)
    (past : List (Machine.Event BuildManager Action Output)) (manager : BuildManager) : Prop where
  flight : SingleFlight manager
  configured : manager.settings = settings
  begun : ∀ event ∈ past, ∀ id, event.action.run? = some id → id < manager.nextId
  recounts : ∀ run ∈ manager.runs,
    run.Recounts settings (jobActions run.id (past.map Machine.Event.action)) (eventsBy run.id past)

/-- Every step keeps what holds of the calls. -/
theorem Chronicle.step {past : List (Machine.Event BuildManager Action Output)}
    (h : Chronicle settings past manager) (hstep : Step manager action next outputs) :
    Chronicle settings (past ++ [⟨manager, action, next, outputs⟩]) next := by
  obtain ⟨hsettings, hlater⟩ := hstep.settings_nextId
  -- Nobody has spoken for the number of the next call.
  have hnobody : ∀ event ∈ past, event.action.run? ≠ some manager.nextId := fun event hevent heq =>
    absurd (h.begun event hevent _ heq) (Nat.lt_irrefl _)
  have hnew : jobActions manager.nextId (past.map Machine.Event.action) = [] ∧
      eventsBy manager.nextId past = [] := by
    refine ⟨List.filterMap_eq_nil_iff.2 fun action haction => ?_, ?_⟩
    · obtain ⟨event, hevent, rfl⟩ := List.mem_map.1 haction
      exact job?_eq_none (hnobody event hevent)
    · have hsilent : toldBy manager.nextId past = [] :=
        List.flatMap_eq_nil_iff.2 fun event hevent => if_neg (hnobody event hevent)
      rw [eventsBy, hsilent]
      rfl
  have hrecounts : ∀ run ∈ next.runs, run.Recounts manager.settings
      (ownAfter (fun id => jobActions id (past.map Machine.Event.action)) action run.id)
      (eventsAfter (fun id => eventsBy id past) action outputs run.id) :=
    hstep.recounts h.flight (h.configured ▸ h.recounts) hnew
  refine ⟨h.flight.step hstep, hsettings.trans h.configured, ?_, fun run hrun => ?_⟩
  · intro event hevent id hid
    rcases List.mem_append.1 hevent with hold | hnow
    · exact Nat.lt_of_lt_of_le (h.begun event hold id hid) hlater
    · rw [List.mem_singleton.1 hnow] at hid
      exact Nat.lt_of_lt_of_le (hstep.turn_lt h.flight hid) hlater
  · rw [List.map_append, List.map_singleton, jobActions_concat, eventsBy_concat, ← h.configured]
    exact hrecounts run hrun

/-- What holds of the calls after every history. -/
theorem chronicle_run {env : Environment} {actions : List Action}
    (hrun : (ofSettings settings env).run? actions = some (manager, outputs)) :
    Chronicle settings (Machine.trace step? (ofSettings settings env) actions) manager :=
  Machine.run?_trace_invariant step? (fun _ _ _ _ _ h hstep => h.step (.of_step? hstep)) hrun
    ⟨.initial settings env, rfl, fun _ hevent => absurd hevent List.not_mem_nil,
      fun _ hmem => absurd hmem List.not_mem_nil⟩

/-! ## The tool is not there -/

/-- What is passed on of a job never says that the tool is not there. -/
theorem countP_isMissing_passedOn (mode : OutputMode) (commandLine : String)
    (callbacks : List Job.Callback) :
    (callbacks.flatMap (passedOn mode commandLine)).countP Event.isMissing = 0 := by
  refine List.countP_eq_zero.2 fun event hevent => ?_
  obtain ⟨callback, -, hmem⟩ := List.mem_flatMap.1 hevent
  cases callback with
  | started =>
      rw [List.mem_singleton.1 hmem]
      exact Bool.false_ne_true
  | line stream text =>
      obtain ⟨line, -, rfl⟩ := List.mem_map.1 hmem
      exact Bool.false_ne_true
  | exited outcome => exact absurd hmem List.not_mem_nil

/-- That the tool is not there is told when the manager notes that it told this. -/
theorem Step.countMissing (hstep : Step manager action next outputs) :
    (outputs.filterMap Output.event?).countP Event.isMissing + manager.missingTold.toNat
      = next.missingTold.toNat := by
  cases hstep with
  | concludeMissing run result program _ _ _ _ hnew =>
      rw [hnew]
      rfl
  | finish => exact Nat.zero_add _
  | job run action job told =>
      obtain ⟨-, -, htold⟩ := run.observer.emitted_observeAll told
      rw [events_reportAll, htold, countP_isMissing_passedOn, Nat.zero_add]
      obtain ⟨collection, heq⟩ := manager.jobStep_eq run job told
      rw [heq]
      rfl
  | replace run target | stop index target =>
      rcases manager.kill_cases target with heq | ⟨asked, -, -, -, heq⟩
      all_goals
        rw [heq]
        exact Nat.zero_add _
  | _ => exact Nat.zero_add _

/-- In a whole history it is told at most once that the tool is not there. -/
theorem countMissing_run {env : Environment} {actions : List Action}
    (hrun : (ofSettings settings env).run? actions = some (manager, outputs)) :
    (outputs.filterMap Output.event?).countP Event.isMissing ≤ 1 := by
  have hcount := Machine.run?_history_invariant step?
    (P := fun _ told manager =>
      (told.filterMap Output.event?).countP Event.isMissing = manager.missingTold.toNat)
    (fun past said manager action next told hpast h => ?_) hrun rfl
  · rw [hcount]
    exact Bool.toNat_le _
  · rw [List.filterMap_append, List.countP_append, hpast, Nat.add_comm]
    exact (Step.of_step? h).countMissing

end BuildManager

namespace Build

variable {settings : BuildSettings} {own : List Job.Action} {events : List Event} {run : Run}
  {status : Status}

/-- What is promised of the events of a run that has returned how its build ended. `own` is what the
parties of its job did. -/
structure Run.Told (settings : BuildSettings) (own : List Job.Action) (events : List Event)
    (run : Run) (status : Status) : Prop where
  commandLine : run.commandLine = run.job.command.display
  /-- The start is told first, then lines, and the end last; the tool is said to be missing only
  where this is how the run ended. -/
  inOrder : ∃ lines missing,
    events = .started run.commandLine :: outputEvents lines
      ++ missing.toList.map .toolMissing ++ [.finished status] ∧
    (∀ program, missing = some program → status = .toolMissing program) ∧
    (∀ program, status = .toolMissing program → lines = []) ∧
    -- All lines of an output are shown, unless the drain was given up or an output was missing.
    (Job.Action.giveUp ∉ own → (∀ stream, run.job.result? ≠ some (.error (.missingPipe stream))) →
      ∀ stream, onStream stream lines
        = (LineBuffer.linesOf (Job.written stream own)).flatMap (shown settings.outputMode))
  /-- How the run ended is how its job ended. -/
  outcome : ∃ result, run.job.result? = some result ∧ status = statusOf settings.tool result
  notFound : Job.Action.spawn (.error .notFound) ∈ own → status = .toolMissing settings.tool

/-- A run ends without its tool only when the spawn failed because of that. -/
theorem spawn_of_toolMissing {tool program : String} {result : Except Job.Failure Job.Outcome}
    (h : statusOf tool result = .toolMissing program) :
    ∃ command, result = .error (.spawn command .notFound) := by
  unfold statusOf at h
  split at h
  · exact nomatch h
  · exact nomatch h
  · exact nomatch h
  · rename_i failure
    split at h
    · rename_i hmissing
      match failure, hmissing with
      | .spawn command .notFound, _ => exact ⟨command, rfl⟩
    · exact nomatch h

/-- A run that recounts what it did and told, and has returned, has told it as promised. -/
theorem Run.Recounts.told (h : run.Recounts settings own events)
    (hpoint : run.point = .returned (.finished status)) : run.Told settings own events status := by
  obtain ⟨result, hresult, rfl⟩ := h.status status (by rw [hpoint]; rfl)
  obtain ⟨actions, callbacks, missing, hrun, rfl, hevents, hmissing⟩ := h.history
  rw [hpoint] at hevents hmissing
  -- What the job told of lines is passed on between the start and the end.
  have hpassed : ∀ lines,
      callbacks = .started :: Job.linesTold lines ++ run.job.outcomes.map .exited →
      events = .started run.commandLine :: outputEvents (forwarded settings.outputMode lines)
        ++ missing.toList.map .toolMissing ++ [.finished (statusOf settings.tool result)] := by
    rintro lines rfl
    rw [hevents, List.cons_append, List.flatMap_cons, List.flatMap_append,
      flatMap_passedOn_linesTold, flatMap_passedOn_exited]
    simp [passedOn, RunPoint.epilogue]
  have hnamed : ∀ program, missing = some program →
      statusOf settings.tool result = .toolMissing program :=
    fun program heq => Option.some.inj (hmissing program heq)
  have hsilent : ∀ lines,
      callbacks = .started :: Job.linesTold lines ++ run.job.outcomes.map .exited →
      ∀ program, statusOf settings.tool result = .toolMissing program →
        forwarded settings.outputMode lines = [] := by
    intro lines hcallbacks program hstatus
    obtain ⟨command, rfl⟩ := spawn_of_toolMissing hstatus
    rw [Job.told_of_spawn_failed hrun hresult] at hcallbacks
    obtain ⟨hlines, -⟩ := List.append_eq_nil_iff.1 (List.cons.inj hcallbacks).2.symm
    rw [List.map_eq_nil_iff.1 hlines]
    rfl
  refine ⟨h.command, ?_, ⟨result, hresult, rfl⟩, fun hspawn => ?_⟩
  · by_cases hcomplete : Job.Action.giveUp ∉ actions ∧
        ∀ stream, result ≠ .error (.missingPipe stream)
    · obtain ⟨lines, hcallbacks, hlines⟩ :=
        Job.told_of_result? hrun hresult hcomplete.1 hcomplete.2
      refine ⟨_, missing, hpassed lines hcallbacks, hnamed, hsilent lines hcallbacks,
        fun _ _ stream => ?_⟩
      rw [onStream_forwarded, hlines, Job.written_withoutKills]
    · rcases Job.told_inOrder hrun with ⟨-, hopen⟩ | ⟨lines, hcallbacks, -⟩
      · cases hopen.symm.trans hresult
      · refine ⟨_, missing, hpassed lines hcallbacks, hnamed, hsilent lines hcallbacks,
          fun hread hpipes => absurd ⟨?_, ?_⟩ hcomplete⟩
        · rwa [Job.mem_withoutKills rfl] at hread
        · intro stream heq
          exact hpipes stream (hresult.trans (congrArg some heq))
  · have hspawned := Job.point_of_spawn_failed hrun ((Job.mem_withoutKills rfl).1 hspawn)
    rw [Job.point_of_result? hresult] at hspawned
    cases hspawned
    rfl

end Build

namespace BuildManager

open Build

/-! ## A call comes to its end -/

variable {manager next : BuildManager} {run : Run} {outputs : List Output}

/-- A call in the slot learns how its job ended. -/
theorem exists_conclude (hflight : SingleFlight manager) (hmem : run ∈ manager.runs)
    (hpoint : run.point = .executing) {result : Except Job.Failure Job.Outcome}
    (hresult : run.job.result? = some result) :
    ∃ next outputs, manager.step? (.conclude run.id) = some (next, outputs) ∧
      { run with point := .finishing (statusOf manager.settings.tool result) } ∈ next.runs := by
  have hfound := findRun?_of_mem hflight.nodup hmem
  have hset : { run with point := .finishing (statusOf manager.settings.tool result) } ∈
      (manager.setRun
        { run with point := .finishing (statusOf manager.settings.tool result) }).runs :=
    mem_setRun hmem rfl
  simp only [step?, hfound, Option.bind_eq_bind, Option.bind_some, runStep?, hpoint, hresult]
  split
  · split
    · exact ⟨_, _, rfl, hset⟩
    · exact ⟨_, _, rfl, hset⟩
  · exact ⟨_, _, rfl, hset⟩

/-- A call that knows how its build ended tells it. -/
theorem exists_finish (hflight : SingleFlight manager) (hmem : run ∈ manager.runs)
    {status : Status} (hpoint : run.point = .finishing status) :
    ∃ next outputs, manager.step? (.finish run.id) = some (next, outputs) ∧
      { run with point := .leaving status } ∈ next.runs := by
  have hfound := findRun?_of_mem hflight.nodup hmem
  simp only [step?, hfound, Option.bind_eq_bind, Option.bind_some, runStep?, hpoint]
  exact ⟨_, _, rfl, mem_setRun hmem rfl⟩

/-- A call that has told how its build ended returns it. -/
theorem exists_leave (hflight : SingleFlight manager) (hmem : run ∈ manager.runs)
    {status : Status} (hpoint : run.point = .leaving status) :
    ∃ next outputs, manager.step? (.leave run.id) = some (next, outputs) ∧
      { run with point := .returned (.finished status) } ∈ next.runs := by
  have hfound := findRun?_of_mem hflight.nodup hmem
  simp only [step?, hfound, Option.bind_eq_bind, Option.bind_some, runStep?, hpoint]
  have hset : { run with point := .returned (.finished status) } ∈
      (manager.setRun { run with point := .returned (.finished status) }).runs :=
    mem_setRun hmem rfl
  exact ⟨_, _, rfl, hset⟩

/-- A call in the slot whose job has returned tells the end of its build, and returns it. -/
theorem exists_return (hflight : SingleFlight manager) (hmem : run ∈ manager.runs)
    (hpoint : run.point = .executing) {result : Except Job.Failure Job.Outcome}
    (hresult : run.job.result? = some result) :
    ∃ next outputs,
      manager.run? [.conclude run.id, .finish run.id, .leave run.id] = some (next, outputs) ∧
      { run with point := .returned (.finished (statusOf manager.settings.tool result)) }
        ∈ next.runs := by
  obtain ⟨concluded, first, hfirst, hconcluded⟩ := exists_conclude hflight hmem hpoint hresult
  have hflight := hflight.step (.of_step? hfirst)
  obtain ⟨told, second, hsecond, htold⟩ := exists_finish hflight hconcluded rfl
  obtain ⟨gone, third, hthird, hgone⟩ :=
    exists_leave (hflight.step (.of_step? hsecond)) htold rfl
  refine ⟨gone, first ++ (second ++ (third ++ [])), ?_, hgone⟩
  rw [run?, Machine.run?_cons_eq_some]
  refine ⟨concluded, first, _, hfirst, ?_, rfl⟩
  rw [Machine.run?_cons_eq_some]
  refine ⟨told, second, _, hsecond, ?_, rfl⟩
  rw [Machine.run?_cons_eq_some]
  exact ⟨gone, third, [], hthird, rfl, rfl⟩

/-- The events of the runs of a manager, whatever their tools write and however they end: a run
that has returned how it ended has told this as `Run.Told` says, a run whose job has returned can
return, and over all runs it is told at most once that the tool is not there. -/
theorem events_of_runs {settings : BuildSettings} {env : Environment} {actions : List Action}
    (hrun : (ofSettings settings env).run? actions = some (manager, outputs)) :
    (∀ run ∈ manager.runs, ∀ status, run.point = .returned (.finished status) →
      run.Told settings (jobActions run.id actions)
        (eventsBy run.id (Machine.trace step? (ofSettings settings env) actions)) status) ∧
    (∀ run ∈ manager.runs, run.point = .executing → ∀ result, run.job.result? = some result →
      ∃ next later,
        manager.run? [.conclude run.id, .finish run.id, .leave run.id] = some (next, later) ∧
        { run with point := .returned (.finished (statusOf settings.tool result)) } ∈ next.runs) ∧
    (outputs.filterMap Output.event?).countP Event.isMissing ≤ 1 := by
  have hchronicle := chronicle_run hrun
  refine ⟨fun run hmem status hpoint => ?_, fun run hmem hpoint result hresult => ?_,
    countMissing_run hrun⟩
  · have hrecounts := hchronicle.recounts run hmem
    rw [Machine.map_action_trace step? hrun] at hrecounts
    exact hrecounts.told hpoint
  · rw [← hchronicle.configured]
    exact exists_return hchronicle.flight hmem hpoint hresult

/-- A build whose outputs are read after its end was seen, with a line that holds nothing for people
and one with a compiler message for them, and then two builds without their tool. -/
theorem events_of_runs_late_lines :
    let invocation : Invocation := ⟨"build", [], ⟨"/w"⟩⟩
    let message := "\x7b\"message\":\"m\",\"level\":\"note\",\"rendered\":\"a\\r\\n\\nb\\n\"\x7d"
    let lines :=
      Text.Utf8.encode ("x\n\x7b\"reason\":\"r\"\x7d\n" ++ message ++ "\ny").toList
    let missing (id : Nat) : List Action :=
      [.call invocation, .choose id, .job id .execute, .job id .announce,
        .job id (.spawn (.error .notFound)), .conclude id, .finish id, .leave id]
    let actions : List Action :=
      [.call invocation, .choose 1, .job 1 .execute, .job 1 .announce, .job 1 (.spawn (.ok 7)),
        .job 1 .recordPid, .job 1 (.takePipes none), .job 1 (.write .out lines),
        .job 1 (.write .err [101, 10]), .job 1 (.childEnds (some 1)), .job 1 (.reap none),
        .job 1 .sweep, .job 1 (.close .out), .job 1 (.close .err), .job 1 (.read .out 80),
        .job 1 (.read .err 8), .job 1 .dispatch, .job 1 .dispatch, .job 1 .dispatch,
        .job 1 .dispatch, .job 1 (.readEnd .err), .job 1 (.readEnd .out), .job 1 .dispatch,
        .job 1 .drain, .job 1 .settle, .job 1 .reportExit, .conclude 1, .finish 1, .leave 1]
        ++ missing 2 ++ missing 3
    ∃ manager outputs, (ofSettings .standard []).run? actions = some (manager, outputs) ∧
      eventsBy 1 (Machine.trace step? (ofSettings .standard []) actions)
        = [.started "cargo build --message-format json", .output "x" .out, .output "a" .out,
          .output "" .out, .output "b" .out, .output "e" .err, .output "y" .out,
          .finished (.failed (some 1))] ∧
      (∃ run ∈ manager.runs, run.Told .standard (jobActions 1 actions)
        (eventsBy 1 (Machine.trace step? (ofSettings .standard []) actions)) (.failed (some 1))) ∧
      (outputs.filterMap Output.event?).countP Event.isMissing = 1 := by
  intro invocation message lines missing actions
  have hhistory : (((ofSettings .standard []).run? actions).elim false fun reply =>
      (reply.1.runs.any fun run =>
        run.id == 1 && run.point == .returned (.finished (.failed (some 1)))) &&
      (reply.2.filterMap Output.event?).countP Event.isMissing == 1) = true := by
    decide +kernel
  cases hrun : (ofSettings .standard []).run? actions with
  | none =>
      rw [hrun] at hhistory
      exact nomatch hhistory
  | some reply =>
      simp only [hrun, Option.elim_some, Bool.and_eq_true, List.any_eq_true, beq_iff_eq]
        at hhistory
      obtain ⟨⟨run, hmem, hid, hpoint⟩, hcount⟩ := hhistory
      have htold := (events_of_runs hrun).1 run hmem _ hpoint
      rw [hid] at htold
      exact ⟨reply.1, reply.2, rfl, by decide +kernel, ⟨run, hmem, htold⟩, hcount⟩

end BuildManager

end Toolbench
