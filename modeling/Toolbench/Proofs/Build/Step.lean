import Mathlib.Data.List.Nodup
import Toolbench.Build.Manager

/-!
# The steps of a manager of builds as rules

`Step manager action next outputs` has one rule for each thing that a party of a manager can do,
with what must hold before it and the whole state after it; `Step.of_step?` says that whatever a
manager does is one of them. The rules speak of the calls through `setRun`, `kill` and
`reportAll`, whose effects on the list of calls come first.
-/

namespace Toolbench.BuildManager

open Build

variable {manager next : BuildManager} {run other : Run} {id : Nat}

/-! ## The list of calls -/

/-- The call that is found is one of the list and has the number. -/
theorem mem_of_findRun? (h : manager.findRun? id = some run) :
    run ∈ manager.runs ∧ run.id = id :=
  ⟨List.mem_of_find?_eq_some h, by simpa using List.find?_some h⟩

/-- What a call does by its number is done by a call that is found. -/
theorem exists_run_of_bind {α : Type} {f : Run → Option α} {reply : α}
    (h : (manager.findRun? id).bind f = some reply) :
    ∃ run, run.id = id ∧ manager.findRun? run.id = some run ∧ f run = some reply := by
  obtain ⟨run, hrun, hreply⟩ := Option.bind_eq_some_iff.1 h
  obtain ⟨-, rfl⟩ := mem_of_findRun? hrun
  exact ⟨run, rfl, hrun, hreply⟩

/-- Where numbers are used once, a call is found by its number. -/
theorem findRun?_of_mem (hnodup : (manager.runs.map Run.id).Nodup) (h : run ∈ manager.runs) :
    manager.findRun? run.id = some run := by
  cases hfound : manager.findRun? run.id with
  | none => exact absurd (decide_eq_true rfl) (List.find?_eq_none.1 hfound run h)
  | some found =>
      obtain ⟨hmem, hid⟩ := mem_of_findRun? hfound
      rw [List.inj_on_of_nodup_map hnodup hmem h hid]

/-- To replace a call leaves the numbers as they are. -/
@[simp] theorem setRun_ids (manager : BuildManager) (run : Run) :
    (manager.setRun run).runs.map Run.id = manager.runs.map Run.id := by
  rw [setRun, List.map_map]
  refine List.map_congr_left fun other _ => ?_
  by_cases hsame : other.id = run.id <;> simp [hsame]

/-- After a call is replaced the others are still there, and the new one where the old one was. -/
theorem mem_setRun_iff :
    other ∈ (manager.setRun run).runs ↔
      (other = run ∧ ∃ old ∈ manager.runs, old.id = run.id) ∨
        (other ∈ manager.runs ∧ other.id ≠ run.id) := by
  simp only [setRun, List.mem_map]
  constructor
  · rintro ⟨old, hold, rfl⟩
    by_cases hsame : old.id = run.id
    · exact .inl ⟨if_pos hsame, old, hold, hsame⟩
    · rw [if_neg hsame]
      exact .inr ⟨hold, hsame⟩
  · rintro (⟨rfl, old, hold, hsame⟩ | ⟨hold, hother⟩)
    · exact ⟨old, hold, if_pos hsame⟩
    · exact ⟨other, hold, if_neg hother⟩

/-- What an observer asks for changes the collection and nothing else. -/
theorem reportAll_eq (directory : Path) (manager : BuildManager) (reports : List Report) :
    ∃ collection, (manager.reportAll directory reports).1 = { manager with collection } := by
  induction reports generalizing manager with
  | nil => exact ⟨manager.collection, rfl⟩
  | cons report reports ih =>
      obtain ⟨collection, hrest⟩ := ih (manager.report directory report).1
      cases report with
      | clear | emit | publish => exact ⟨collection, hrest⟩

/-- When a party of a job acts, its call changes, and the collection with what its observer asks
for. -/
theorem jobStep_eq (manager : BuildManager) (run : Run) (job : Job) (told : List Job.Callback) :
    ∃ collection, ((manager.setRun { run with
          job, observer := (run.observer.observeAll told).1 }).reportAll
        (run.observer.observeAll told).1.directory (run.observer.observeAll told).2).1
      = { manager.setRun { run with job, observer := (run.observer.observeAll told).1 } with
          collection } :=
  reportAll_eq _ _ _

/-- A call that asks a build to end is allowed to when that build runs and was not asked
before. -/
theorem kill_cases (manager : BuildManager) (target : Nat) :
    manager.kill target = (false, manager) ∨
      ∃ run, manager.findRun? target = some run ∧ run.job.control.state = .running ∧
        run.job.control.interrupted = false ∧
        manager.kill target = (true, manager.setRun { run with
          job := { run.job with
            control := { run.job.control with interrupted := true }
            killer := .accepted run.job.control.pid } }) := by
  unfold kill
  cases hrun : manager.findRun? target with
  | none => exact .inl rfl
  | some run =>
      dsimp only [Job.Control.acceptKill?]
      by_cases hallowed : run.job.control.state = .running ∧ run.job.control.interrupted = false
      · rw [if_pos hallowed]
        exact .inr ⟨run, rfl, hallowed.1, hallowed.2, rfl⟩
      · rw [if_neg hallowed]
        exact .inl rfl

/-- To ask a build to end leaves the slot as it is. -/
@[simp] theorem kill_slot (manager : BuildManager) (target : Nat) :
    (manager.kill target).2.slot = manager.slot := by
  rcases manager.kill_cases target with heq | ⟨run, -, -, -, heq⟩
  · rw [heq]
  · rw [heq]
    rfl

/-- To ask a build to end leaves the next number as it is. -/
@[simp] theorem kill_nextId (manager : BuildManager) (target : Nat) :
    (manager.kill target).2.nextId = manager.nextId := by
  rcases manager.kill_cases target with heq | ⟨run, -, -, -, heq⟩
  · rw [heq]
  · rw [heq]
    rfl

/-- To ask a build to end leaves the numbers as they are. -/
@[simp] theorem kill_ids (manager : BuildManager) (target : Nat) :
    (manager.kill target).2.runs.map Run.id = manager.runs.map Run.id := by
  rcases manager.kill_cases target with heq | ⟨run, -, -, -, heq⟩
  · rw [heq]
  · rw [heq]
    exact setRun_ids manager _

/-! ## The rules -/

/-- One rule for each thing that a party of a manager can do. -/
inductive Step (manager : BuildManager) : Action → BuildManager → List Output → Prop where
  | call (invocation : Invocation) :
      Step manager (.call invocation)
        { manager with
          nextId := manager.nextId + 1
          runs := manager.runs ++ [manager.newRun invocation] } []
  /-- The slot is empty or its build has ended. -/
  | take (run : Run) (hrun : manager.findRun? run.id = some run) (hpoint : run.point = .choosing)
      (hfree : manager.active? = none) :
      Step manager (.choose run.id)
        { manager.setRun { run with point := .executing } with
          slot := some ⟨run.id, run.commandLine⟩ } []
  | skip (run : Run) (slot : Slot) (hrun : manager.findRun? run.id = some run)
      (hpoint : run.point = .choosing) (hactive : manager.active? = some slot)
      (hpolicy : manager.settings.onBusy = .ignore) :
      Step manager (.choose run.id)
        (manager.setRun { run with point := .returned .skipped }) []
  | refuse (run : Run) (slot : Slot) (hrun : manager.findRun? run.id = some run)
      (hpoint : run.point = .choosing) (hactive : manager.active? = some slot)
      (hpolicy : manager.settings.onBusy = .ask) :
      Step manager (.choose run.id)
        (manager.setRun { run with point := .returned (.busy slot.commandLine) }) []
  | stopOther (run : Run) (slot : Slot) (hrun : manager.findRun? run.id = some run)
      (hpoint : run.point = .choosing) (hactive : manager.active? = some slot)
      (hpolicy : manager.settings.onBusy = .stop) :
      Step manager (.choose run.id)
        (manager.setRun { run with point := .stopping slot.id }) []
  | replace (run : Run) (target : Nat) (hrun : manager.findRun? run.id = some run)
      (hpoint : run.point = .stopping target) :
      Step manager (.replace run.id)
        ((manager.kill target).2.setRun
          { run with
            point := if (manager.kill target).1 then .awaiting target else .choosing }) []
  | resume (run : Run) (target : Nat) (hrun : manager.findRun? run.id = some run)
      (hpoint : run.point = .awaiting target) (hreturned : manager.killReturned target = true) :
      Step manager (.resume run.id) (manager.setRun { run with point := .choosing }) []
  /-- A job begins only when its build is in the slot, and is asked to end by other rules. -/
  | job (run : Run) (action : Job.Action) (job : Job) (told : List Job.Callback)
      (hrun : manager.findRun? run.id = some run)
      (hexecute : action = .execute → run.point = .executing) (hkill : action ≠ .kill)
      (hstep : run.job.step? action = some (job, told)) :
      Step manager (.job run.id action)
        ((manager.setRun { run with
            job, observer := (run.observer.observeAll told).1 }).reportAll
          (run.observer.observeAll told).1.directory (run.observer.observeAll told).2).1
        ((manager.setRun { run with
            job, observer := (run.observer.observeAll told).1 }).reportAll
          (run.observer.observeAll told).1.directory (run.observer.observeAll told).2).2
  | conclude (run : Run) (result : Except Job.Failure Job.Outcome)
      (hrun : manager.findRun? run.id = some run) (hpoint : run.point = .executing)
      (hresult : run.job.result? = some result)
      (hknown : ∀ program, statusOf manager.settings.tool result = .toolMissing program →
        manager.missingTold = true) :
      Step manager (.conclude run.id)
        (manager.setRun { run with
          point := .finishing (statusOf manager.settings.tool result) }) []
  /-- The first time that the tool is not there, this is told. -/
  | concludeMissing (run : Run) (result : Except Job.Failure Job.Outcome) (program : String)
      (hrun : manager.findRun? run.id = some run) (hpoint : run.point = .executing)
      (hresult : run.job.result? = some result)
      (hstatus : statusOf manager.settings.tool result = .toolMissing program)
      (hnew : manager.missingTold = false) :
      Step manager (.conclude run.id)
        { manager.setRun { run with point := .finishing (.toolMissing program) } with
          missingTold := true } [.event (.toolMissing program)]
  | finish (run : Run) (status : Status) (hrun : manager.findRun? run.id = some run)
      (hpoint : run.point = .finishing status) :
      Step manager (.finish run.id) (manager.setRun { run with point := .leaving status })
        [.event (.finished status)]
  /-- The slot is given back unless a newer build has taken it. -/
  | leave (run : Run) (status : Status) (hrun : manager.findRun? run.id = some run)
      (hpoint : run.point = .leaving status) :
      Step manager (.leave run.id)
        { manager.setRun { run with point := .returned (.finished status) } with
          slot := manager.slot.filter (·.id ≠ run.id) } []
  | callStop : Step manager .callStop { manager with stops := manager.stops ++ [.looking] } []
  | look (index : Nat) (hpoint : manager.stops[index]? = some .looking) :
      Step manager (.look index)
        (manager.setStop index
          (match manager.slot with
            | none => .returned none
            | some slot => .stopping slot.id)) []
  | stop (index target : Nat) (hpoint : manager.stops[index]? = some (.stopping target)) :
      Step manager (.stop index)
        ((manager.kill target).2.setStop index
          (if (manager.kill target).1 then .awaiting target else .returned (some target))) []
  | stopReturns (index target : Nat) (hpoint : manager.stops[index]? = some (.awaiting target))
      (hreturned : manager.killReturned target = true) :
      Step manager (.stopReturns index) (manager.setStop index (.returned (some target))) []

variable {action : Action} {outputs : List Output}

namespace Step

/-- A call that looks into the slot follows the rules. -/
theorem of_choose (hrun : manager.findRun? run.id = some run) (hpoint : run.point = .choosing) :
    Step manager (.choose run.id) (manager.choose run) [] := by
  unfold choose
  cases hactive : manager.active? with
  | none => exact .take run hrun hpoint hactive
  | some slot =>
      dsimp only
      cases hpolicy : manager.settings.onBusy with
      | ignore => exact .skip run slot hrun hpoint hactive hpolicy
      | ask => exact .refuse run slot hrun hpoint hactive hpolicy
      | stop => exact .stopOther run slot hrun hpoint hactive hpolicy

/-- A call that learns how its job ended follows the rules. -/
theorem of_conclude (hrun : manager.findRun? run.id = some run) (hpoint : run.point = .executing)
    (h : manager.runStep? run (.conclude run.id) = some (next, outputs)) :
    Step manager (.conclude run.id) next outputs := by
  simp only [runStep?, hpoint, Option.bind_eq_bind, Option.bind_eq_some_iff] at h
  obtain ⟨result, hresult, h⟩ := h
  split at h
  · rename_i program hstatus
    split at h
    · rename_i hknown
      cases h
      exact .conclude run result hrun hpoint hresult fun _ _ => hknown
    · rename_i hnew
      cases h
      rw [hstatus]
      exact .concludeMissing run result program hrun hpoint hresult hstatus
        (Bool.eq_false_iff.2 hnew)
  · rename_i hother
    cases h
    exact .conclude run result hrun hpoint hresult fun program hstatus =>
      absurd hstatus (hother program)

/-- Steps of a call to stop the active build follow the rules. -/
theorem of_stopStep? {index : Nat}
    (haction : action = .look index ∨ action = .stop index ∨ action = .stopReturns index)
    (h : manager.stopStep? index action = some next) : Step manager action next [] := by
  obtain ⟨point, hpoint, h⟩ := Option.bind_eq_some_iff.1 h
  rcases haction with rfl | rfl | rfl
  · cases point with
    | looking =>
        have hlook := Step.look index hpoint
        cases hslot : manager.slot with
        | none =>
            simp only [hslot] at h hlook
            cases h
            exact hlook
        | some slot =>
            simp only [hslot] at h hlook
            cases h
            exact hlook
    | _ => exact nomatch h
  · cases point with
    | stopping target =>
        cases h
        exact .stop index target hpoint
    | _ => exact nomatch h
  · cases point with
    | awaiting target =>
        simp only [Option.ite_none_right_eq_some] at h
        obtain ⟨hreturned, h⟩ := h
        cases h
        exact .stopReturns index target hpoint hreturned
    | _ => exact nomatch h

/-- A party of a build's job follows the rules. -/
theorem of_jobStep? {jobAction : Job.Action} (hrun : manager.findRun? run.id = some run)
    (hexecute : jobAction = .execute → run.point = .executing) (hkill : jobAction ≠ .kill)
    (h : manager.jobStep? run jobAction = some (next, outputs)) :
    Step manager (.job run.id jobAction) next outputs := by
  obtain ⟨⟨job, told⟩, hstep, hreply⟩ := Option.bind_eq_some_iff.1 h
  have hreply := Option.some.inj hreply
  obtain rfl : _ = next := congrArg Prod.fst hreply
  obtain rfl : _ = outputs := congrArg Prod.snd hreply
  exact .job run jobAction job told hrun hexecute hkill hstep

/-- What a manager does follows the rules. -/
theorem of_step? (h : manager.step? action = some (next, outputs)) :
    Step manager action next outputs := by
  cases action with
  | call invocation =>
      cases h
      exact .call invocation
  | callStop =>
      cases h
      exact .callStop
  | look index | stop index | stopReturns index =>
      obtain ⟨other, hstep, heq⟩ := Option.map_eq_some_iff.1 h
      cases heq
      exact .of_stopStep? (by simp) hstep
  | job id jobAction =>
      cases jobAction with
      | kill => exact nomatch h
      | execute =>
          obtain ⟨run, rfl, hrun, hstep⟩ := exists_run_of_bind h
          obtain ⟨hpoint, hstep⟩ := Option.ite_none_right_eq_some.1 hstep
          exact .of_jobStep? hrun (fun _ => hpoint) nofun hstep
      | _ =>
          obtain ⟨run, rfl, hrun, hstep⟩ := exists_run_of_bind h
          exact .of_jobStep? hrun nofun nofun hstep
  | choose id =>
      obtain ⟨run, rfl, hrun, hstep⟩ := exists_run_of_bind h
      cases hpoint : run.point with
      | choosing =>
          simp only [runStep?, hpoint] at hstep
          cases hstep
          exact .of_choose hrun hpoint
      | _ => simp [runStep?, hpoint] at hstep
  | replace id =>
      obtain ⟨run, rfl, hrun, hstep⟩ := exists_run_of_bind h
      cases hpoint : run.point with
      | stopping target =>
          simp only [runStep?, hpoint] at hstep
          cases hstep
          exact .replace run target hrun hpoint
      | _ => simp [runStep?, hpoint] at hstep
  | resume id =>
      obtain ⟨run, rfl, hrun, hstep⟩ := exists_run_of_bind h
      cases hpoint : run.point with
      | awaiting target =>
          simp only [runStep?, hpoint, Option.ite_none_right_eq_some] at hstep
          obtain ⟨hreturned, hstep⟩ := hstep
          cases hstep
          exact .resume run target hrun hpoint hreturned
      | _ => simp [runStep?, hpoint] at hstep
  | conclude id =>
      obtain ⟨run, rfl, hrun, hstep⟩ := exists_run_of_bind h
      cases hpoint : run.point with
      | executing => exact .of_conclude hrun hpoint hstep
      | _ => simp [runStep?, hpoint] at hstep
  | finish id =>
      obtain ⟨run, rfl, hrun, hstep⟩ := exists_run_of_bind h
      cases hpoint : run.point with
      | finishing status =>
          simp only [runStep?, hpoint] at hstep
          cases hstep
          exact .finish run status hrun hpoint
      | _ => simp [runStep?, hpoint] at hstep
  | leave id =>
      obtain ⟨run, rfl, hrun, hstep⟩ := exists_run_of_bind h
      cases hpoint : run.point with
      | leaving status =>
          simp only [runStep?, hpoint] at hstep
          cases hstep
          exact .leave run status hrun hpoint
      | _ => simp [runStep?, hpoint] at hstep

/-- A manager keeps its settings, and gives no number twice. -/
theorem settings_nextId (h : Step manager action next outputs) :
    next.settings = manager.settings ∧ manager.nextId ≤ next.nextId := by
  cases h with
  | call => exact ⟨rfl, Nat.le_succ _⟩
  | job run action job told =>
      obtain ⟨collection, heq⟩ := manager.jobStep_eq run job told
      rw [heq]
      exact ⟨rfl, Nat.le_refl _⟩
  | replace run target | stop index target =>
      rcases manager.kill_cases target with heq | ⟨asked, -, -, -, heq⟩
      all_goals
        rw [heq]
        exact ⟨rfl, Nat.le_refl _⟩
  | _ => exact ⟨rfl, Nat.le_refl _⟩

end Step

end Toolbench.BuildManager
