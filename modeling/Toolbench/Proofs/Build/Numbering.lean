import Toolbench.Proofs.Build.Step

/-!
# One call more

Calls to run a build are numbered in the order in which they are made, so a call that was made
moves the numbers of the later ones. `BuildManager.withCall` is a manager with a call more in its
list. `step?_withCall` says that the manager does with it what it does without it, one operation
after the other: no operation looks at a call but by its number, and none but the number of the
call itself finds it.
-/

namespace Toolbench

namespace Build

/-- The number of a call when the call `made` is counted too. -/
def shiftId (made id : Nat) : Nat :=
  if id < made then id else id + 1

variable {made id other : Nat}

theorem shiftId_of_lt (h : id < made) : shiftId made id = id :=
  if_pos h

/-- The next number stays the next one. -/
theorem shiftId_succ (h : made ≤ id) : shiftId made (id + 1) = shiftId made id + 1 := by
  rw [shiftId, shiftId, if_neg (by omega), if_neg (by omega)]

/-- Calls that differ still differ. -/
@[simp] theorem shiftId_inj : shiftId made id = shiftId made other ↔ id = other := by
  unfold shiftId
  split <;> split <;> omega

/-- No other call has the number of the call that was made. -/
@[simp] theorem shiftId_ne : shiftId made id ≠ made := by
  unfold shiftId
  split <;> omega

/-- Every other number is that of a call. -/
theorem exists_shiftId (h : id ≠ made) : ∃ before, shiftId made before = id := by
  by_cases hlt : id < made
  · exact ⟨id, shiftId_of_lt hlt⟩
  · refine ⟨id - 1, ?_⟩
    rw [shiftId, if_neg (by omega)]
    omega

/-- The point of a call, with the call `made` counted. -/
def RunPoint.shifted (made : Nat) : RunPoint → RunPoint
  | .stopping target => .stopping (shiftId made target)
  | .awaiting target => .awaiting (shiftId made target)
  | point => point

/-- The point of a call to stop, with the call `made` counted. -/
def StopPoint.shifted (made : Nat) : StopPoint → StopPoint
  | .looking => .looking
  | .stopping target => .stopping (shiftId made target)
  | .awaiting target => .awaiting (shiftId made target)
  | .returned target => .returned (target.map (shiftId made))

/-- The build in the slot, with the call `made` counted. -/
def Slot.shifted (made : Nat) (slot : Slot) : Slot :=
  { slot with id := shiftId made slot.id }

/-- A call, with the call `made` counted. -/
def Run.shifted (made : Nat) (run : Run) : Run :=
  { run with id := shiftId made run.id, point := run.point.shifted made }

/-- An action, with the call `made` counted. -/
def Action.shifted (made : Nat) : Action → Action
  | .choose id => .choose (shiftId made id)
  | .replace id => .replace (shiftId made id)
  | .resume id => .resume (shiftId made id)
  | .job id action => .job (shiftId made id) action
  | .conclude id => .conclude (shiftId made id)
  | .finish id => .finish (shiftId made id)
  | .leave id => .leave (shiftId made id)
  | .call invocation => .call invocation
  | .callStop => .callStop
  | .look index => .look index
  | .stop index => .stop index
  | .stopReturns index => .stopReturns index

@[simp] theorem Run.shifted_id (made : Nat) (run : Run) :
    (run.shifted made).id = shiftId made run.id := rfl

@[simp] theorem Run.shifted_job (made : Nat) (run : Run) : (run.shifted made).job = run.job := rfl

@[simp] theorem Run.shifted_point (made : Nat) (run : Run) :
    (run.shifted made).point = run.point.shifted made := rfl

/-- Other calls are in the slot when they were. -/
theorem RunPoint.shifted_eq_executing {point : RunPoint} :
    point.shifted made = .executing ↔ point = .executing := by
  cases point <;> simp [RunPoint.shifted]

/-- Of calls in a list the same one is found by its number. -/
theorem find?_map_shifted (runs : List Run) (id : Nat) :
    (runs.map (Run.shifted made)).find? (·.id = shiftId made id)
      = (runs.find? (·.id = id)).map (Run.shifted made) := by
  rw [List.find?_map]
  congr 2
  funext run
  simp

end Build

namespace BuildManager

open Build

/-- A manager in which a call more was made, with the number `made`. -/
def withCall (manager : BuildManager) (made : Nat) (extra : Run) : BuildManager :=
  { manager with
    slot := manager.slot.map (Slot.shifted made)
    nextId := shiftId made manager.nextId
    runs := (manager.runs.filter (·.id < made)).map (Run.shifted made)
      ++ extra :: (manager.runs.filter (made ≤ ·.id)).map (Run.shifted made)
    stops := manager.stops.map (StopPoint.shifted made) }

@[simp] theorem withCall_settings (manager : BuildManager) (made : Nat) (extra : Run) :
    (manager.withCall made extra).settings = manager.settings := rfl

@[simp] theorem withCall_missingTold (manager : BuildManager) (made : Nat) (extra : Run) :
    (manager.withCall made extra).missingTold = manager.missingTold := rfl

@[simp] theorem setRun_missingTold (manager : BuildManager) (run : Run) :
    (manager.setRun run).missingTold = manager.missingTold := rfl

/-- A reply of a manager in which a call more was made. -/
def replyWithCall (made : Nat) (extra : Run) (reply : BuildManager × List Output) :
    BuildManager × List Output :=
  (reply.1.withCall made extra, reply.2)

/-- What an observer asks for is carried out one after the other. -/
theorem reportAll_cons (directory : Path) (manager : BuildManager) (report : Report)
    (reports : List Report) :
    manager.reportAll directory (report :: reports)
      = (((manager.report directory report).1.reportAll directory reports).1,
        (manager.report directory report).2
          ++ ((manager.report directory report).1.reportAll directory reports).2) :=
  rfl

variable {manager : BuildManager} {made : Nat} {extra : Run}

/-- What an observer asks for is carried out as it would have been. -/
theorem reportAll_withCall (directory : Path) (manager : BuildManager) (reports : List Report) :
    (manager.withCall made extra).reportAll directory reports
      = replyWithCall made extra (manager.reportAll directory reports) := by
  induction reports generalizing manager with
  | nil => rfl
  | cons report reports ih =>
      have hfirst : (manager.withCall made extra).report directory report
          = replyWithCall made extra (manager.report directory report) := by
        cases report with
        | clear | emit | publish => rfl
      rw [reportAll_cons, reportAll_cons, hfirst]
      simp only [replyWithCall, ih]

/-- The slot that another call gives back is the one that it would have given back. -/
theorem slot_filter_withCall (manager : BuildManager) (made id : Nat) (extra : Run) :
    (manager.withCall made extra).slot.filter (fun slot : Slot => slot.id ≠ shiftId made id)
      = (manager.slot.filter fun slot : Slot => slot.id ≠ id).map (Slot.shifted made) := by
  show (manager.slot.map (Slot.shifted made)).filter _ = _
  cases manager.slot with
  | none => rfl
  | some slot => by_cases hown : slot.id = id <;> simp [Slot.shifted, Option.filter_some, hown]

section Calls

variable (hextra : extra.id = made)
include hextra

/-- The other calls are found where they were. -/
theorem findRun?_withCall (manager : BuildManager) (id : Nat) :
    (manager.withCall made extra).findRun? (shiftId made id)
      = (manager.findRun? id).map (Run.shifted made) := by
  have hother : ¬ extra.id = shiftId made id := fun heq => shiftId_ne (heq.symm.trans hextra)
  rw [findRun?, withCall, List.find?_append, List.find?_cons_of_neg (by simpa using hother),
    find?_map_shifted, find?_map_shifted, List.find?_filter, List.find?_filter, findRun?,
    ← Option.map_or]
  -- A call is on one side of the call that was made, the one where its number is.
  congr 1
  have hnone : manager.runs.find? (fun _ => false) = none :=
    List.find?_eq_none.2 fun _ _ => Bool.false_ne_true
  by_cases hlt : id < made
  · have hbefore : ∀ run : Run, (run.id < made ∧ run.id = id) ↔ run.id = id := by omega
    have hafter : ∀ run : Run, ¬ (made ≤ run.id ∧ run.id = id) := by omega
    simp only [decide_eq_true_eq, hbefore, hafter, decide_false, hnone, Option.or_none]
  · have hbefore : ∀ run : Run, ¬ (run.id < made ∧ run.id = id) := by omega
    have hafter : ∀ run : Run, (made ≤ run.id ∧ run.id = id) ↔ run.id = id := by omega
    simp only [decide_eq_true_eq, hbefore, hafter, decide_false, hnone, Option.none_or]

/-- The call that was made is found by its number. -/
theorem findRun?_made (manager : BuildManager) :
    (manager.withCall made extra).findRun? made = some extra := by
  have hnone : ((manager.runs.filter (·.id < made)).map (Run.shifted made)).find? (·.id = made)
      = none := by
    simp [List.find?_eq_none]
  rw [findRun?, withCall, List.find?_append, hnone, Option.none_or,
    List.find?_cons_of_pos (by simpa using hextra)]

/-- To replace another call leaves the call that was made. -/
theorem setRun_withCall (manager : BuildManager) (run : Run) :
    (manager.withCall made extra).setRun (run.shifted made)
      = (manager.setRun run).withCall made extra := by
  have hother : ¬ extra.id = (run.shifted made).id := fun heq =>
    shiftId_ne (heq.symm.trans hextra)
  have hmap : ∀ runs : List Run,
      (runs.map (Run.shifted made)).map
          (fun other => if other.id = (run.shifted made).id then run.shifted made else other)
        = (runs.map fun other => if other.id = run.id then run else other).map
          (Run.shifted made) := by
    intro runs
    rw [List.map_map, List.map_map]
    refine List.map_congr_left fun other _ => ?_
    by_cases hsame : other.id = run.id <;> simp [hsame]
  have hfilter : ∀ keep : Nat → Bool,
      (manager.runs.map fun other => if other.id = run.id then run else other).filter
          (fun other => keep other.id)
        = (manager.runs.filter fun other => keep other.id).map
            fun other => if other.id = run.id then run else other := by
    intro keep
    rw [List.filter_map]
    congr 2
    funext other
    by_cases hsame : other.id = run.id <;> simp [hsame]
  simp only [setRun, withCall, List.map_append, List.map_cons, if_neg hother, hmap,
    hfilter (fun id => decide (id < made)), hfilter (fun id => decide (made ≤ id))]

/-- To replace the call that was made leaves the others. -/
theorem setRun_made (manager : BuildManager) {changed : Run} (hchanged : changed.id = made) :
    (manager.withCall made extra).setRun changed = manager.withCall made changed := by
  have hmap : ∀ runs : List Run,
      (runs.map (Run.shifted made)).map
          (fun other => if other.id = changed.id then changed else other)
        = runs.map (Run.shifted made) := by
    intro runs
    rw [List.map_map]
    refine List.map_congr_left fun other _ => ?_
    simp [hchanged]
  simp only [setRun, withCall, List.map_append, List.map_cons, hmap,
    if_pos (hextra.trans hchanged.symm)]

/-- Another job has ended when it had ended. -/
theorem hasEnded_withCall (manager : BuildManager) (id : Nat) :
    (manager.withCall made extra).hasEnded (shiftId made id) = manager.hasEnded id := by
  rw [hasEnded, hasEnded, findRun?_withCall hextra]
  cases manager.findRun? id <;> rfl

/-- The build that is active is the same one. -/
theorem active?_withCall (manager : BuildManager) :
    (manager.withCall made extra).active? = manager.active?.map (Slot.shifted made) := by
  unfold active?
  show Option.filter _ (manager.slot.map (Slot.shifted made)) = _
  cases manager.slot with
  | none => rfl
  | some slot =>
      have hended := hasEnded_withCall hextra manager slot.id
      show (some (slot.shifted made)).filter _ = ((some slot).filter _).map _
      rw [Option.filter_some, Option.filter_some]
      show (if (!(manager.withCall made extra).hasEnded (shiftId made slot.id)) = true then _
        else _) = _
      rw [hended]
      split <;> rfl

/-- The call that asked another build to end returns when it would have. -/
theorem killReturned_withCall (manager : BuildManager) (target : Nat) :
    (manager.withCall made extra).killReturned (shiftId made target)
      = manager.killReturned target := by
  rw [killReturned, killReturned, findRun?_withCall hextra]
  cases manager.findRun? target <;> rfl

/-- Another build is asked to end as it would have been. -/
theorem kill_withCall (manager : BuildManager) (target : Nat) :
    (manager.withCall made extra).kill (shiftId made target)
      = ((manager.kill target).1, (manager.kill target).2.withCall made extra) := by
  rw [kill, kill, findRun?_withCall hextra]
  cases manager.findRun? target with
  | none => rfl
  | some run =>
      have hset := fun job => setRun_withCall hextra manager { run with job }
      simp only [Option.map_some, Run.shifted_job]
      cases run.job.control.acceptKill? with
      | none => rfl
      | some accepted =>
          exact congrArg (Prod.mk true)
            (hset { run.job with control := accepted.2, killer := .accepted accepted.1 })

/-- A party of another job acts as it would have. -/
theorem jobStep?_withCall (manager : BuildManager) (run : Run) (action : Job.Action) :
    (manager.withCall made extra).jobStep? (run.shifted made) action
      = (manager.jobStep? run action).map (replyWithCall made extra) := by
  have hset := fun job observer => setRun_withCall hextra manager { run with job, observer }
  rw [jobStep?, jobStep?, Run.shifted_job]
  cases run.job.step? action with
  | none => rfl
  | some reply =>
      obtain ⟨job, told⟩ := reply
      show some (((manager.withCall made extra).setRun (Run.shifted made
        { run with job, observer := (run.observer.observeAll told).1 })).reportAll _ _) = _
      rw [hset, reportAll_withCall]
      rfl

/-- Another call looks into the slot as it would have. -/
theorem choose_withCall (manager : BuildManager) (run : Run) :
    (manager.withCall made extra).choose (run.shifted made)
      = (manager.choose run).withCall made extra := by
  have hset : ∀ point : RunPoint, (manager.withCall made extra).setRun
      { run.shifted made with point := point.shifted made }
        = (manager.setRun { run with point }).withCall made extra :=
    fun point => setRun_withCall hextra manager { run with point }
  rw [choose, choose, active?_withCall hextra]
  cases manager.active? with
  | none =>
      show { (manager.withCall made extra).setRun
        { run.shifted made with point := RunPoint.shifted made .executing } with
          slot := some (Slot.shifted made ⟨run.id, run.commandLine⟩) } = _
      rw [hset]
      rfl
  | some slot =>
      simp only [Option.map_some, withCall_settings]
      cases manager.settings.onBusy with
      | ignore => exact hset (.returned .skipped)
      | ask => exact hset (.returned (.busy slot.commandLine))
      | stop => exact hset (.stopping slot.id)

/-- Another call takes its steps as it would have. -/
theorem runStep?_withCall (manager : BuildManager) (run : Run) (action : Action) :
    (manager.withCall made extra).runStep? (run.shifted made) (action.shifted made)
      = (manager.runStep? run action).map (replyWithCall made extra) := by
  have hset : ∀ (manager : BuildManager) (point : RunPoint),
      (manager.withCall made extra).setRun
          { run.shifted made with point := point.shifted made }
        = (manager.setRun { run with point }).withCall made extra :=
    fun manager point => setRun_withCall hextra manager { run with point }
  cases hpoint : run.point with
  | choosing =>
      cases action with
      | choose id =>
          simp only [runStep?, Run.shifted_point, hpoint, RunPoint.shifted, Action.shifted,
            choose_withCall hextra]
          rfl
      | _ => simp [runStep?, hpoint, RunPoint.shifted, Action.shifted]
  | stopping target =>
      cases action with
      | replace id =>
          simp only [runStep?, Run.shifted_point, hpoint, RunPoint.shifted, Action.shifted,
            kill_withCall hextra]
          cases (manager.kill target).1 with
          | true => exact congrArg (fun next => some (next, [])) (hset _ (.awaiting target))
          | false => exact congrArg (fun next => some (next, [])) (hset _ .choosing)
      | _ => simp [runStep?, hpoint, RunPoint.shifted, Action.shifted]
  | awaiting target =>
      cases action with
      | resume id =>
          simp only [runStep?, Run.shifted_point, hpoint, RunPoint.shifted, Action.shifted,
            killReturned_withCall hextra]
          cases manager.killReturned target with
          | true => exact congrArg (fun next => some (next, [])) (hset manager .choosing)
          | false => rfl
      | _ => simp [runStep?, hpoint, RunPoint.shifted, Action.shifted]
  | executing =>
      cases action with
      | conclude id =>
          simp only [runStep?, Run.shifted_point, hpoint, RunPoint.shifted, Action.shifted,
            Run.shifted_job]
          cases run.job.result? with
          | none => rfl
          | some result =>
              simp only [Option.bind_eq_bind, Option.bind_some, withCall_settings]
              generalize statusOf manager.settings.tool result = status
              cases status with
              | toolMissing program =>
                  have hconcluded := hset manager (.finishing (.toolMissing program))
                  cases htold : manager.missingTold with
                  | true =>
                      simp only [setRun_missingTold, withCall_missingTold, htold, if_true]
                      exact congrArg (fun next => some (next, [])) hconcluded
                  | false =>
                      simp only [setRun_missingTold, withCall_missingTold, htold,
                        Bool.false_eq_true, if_false]
                      exact congrArg (fun next : BuildManager =>
                        some ({ next with missingTold := true },
                          [Output.event (.toolMissing program)])) hconcluded
              | success | failed | interrupted | spawnFailed =>
                  exact congrArg (fun next => some (next, [])) (hset manager (.finishing _))
      | _ => simp [runStep?, hpoint, RunPoint.shifted, Action.shifted]
  | finishing status =>
      cases action with
      | finish id =>
          simp only [runStep?, Run.shifted_point, hpoint, RunPoint.shifted, Action.shifted]
          exact congrArg (fun next => some (next, [Output.event (.finished status)]))
            (hset manager (.leaving status))
      | _ => simp [runStep?, hpoint, RunPoint.shifted, Action.shifted]
  | leaving status =>
      cases action with
      | leave id =>
          simp only [runStep?, Run.shifted_point, hpoint, RunPoint.shifted, Action.shifted]
          show some ({ (manager.withCall made extra).setRun
            { run.shifted made with
              point := RunPoint.shifted made (.returned (.finished status)) } with
            slot := (manager.withCall made extra).slot.filter
              fun slot : Slot => slot.id ≠ shiftId made run.id }, []) = _
          rw [hset, slot_filter_withCall]
          rfl
      | _ => simp [runStep?, hpoint, RunPoint.shifted, Action.shifted]
  | returned result =>
      cases action with
      | _ => simp [runStep?, hpoint, RunPoint.shifted, Action.shifted]

/-- A call to stop takes its steps as it would have. -/
theorem stopStep?_withCall (manager : BuildManager) (index : Nat) (action : Action) :
    (manager.withCall made extra).stopStep? index (action.shifted made)
      = (manager.stopStep? index action).map (·.withCall made extra) := by
  have hset : ∀ (manager : BuildManager) (point : StopPoint),
      (manager.withCall made extra).setStop index (point.shifted made)
        = (manager.setStop index point).withCall made extra := by
    intro manager point
    simp only [setStop, withCall, List.map_set]
  have hstops : (manager.withCall made extra).stops[index]?
      = manager.stops[index]?.map (StopPoint.shifted made) := List.getElem?_map
  rw [stopStep?, stopStep?, hstops]
  cases manager.stops[index]? with
  | none => rfl
  | some point =>
      cases point with
      | looking =>
          cases action with
          | look =>
              have hslot : (manager.withCall made extra).slot
                  = manager.slot.map (Slot.shifted made) := rfl
              simp only [Action.shifted, Option.map_some, StopPoint.shifted, hslot,
                Option.bind_eq_bind, Option.bind_some]
              cases manager.slot with
              | none => exact congrArg some (hset manager (.returned none))
              | some slot => exact congrArg some (hset manager (.stopping slot.id))
          | _ => rfl
      | stopping target =>
          cases action with
          | stop =>
              show some (((manager.withCall made extra).kill (shiftId made target)).2.setStop index
                  (if ((manager.withCall made extra).kill (shiftId made target)).1
                    then .awaiting (shiftId made target)
                    else .returned (some (shiftId made target))))
                = some (((manager.kill target).2.setStop index
                  (if (manager.kill target).1 then .awaiting target
                    else .returned (some target))).withCall made extra)
              rw [kill_withCall hextra]
              cases (manager.kill target).1 with
              | true => exact congrArg some (hset _ (.awaiting target))
              | false => exact congrArg some (hset _ (.returned (some target)))
          | _ => rfl
      | awaiting target =>
          cases action with
          | stopReturns =>
              show (if (manager.withCall made extra).killReturned (shiftId made target) then _
                else none) = Option.map _ (if manager.killReturned target then _ else none)
              rw [killReturned_withCall hextra]
              cases manager.killReturned target with
              | true => exact congrArg some (hset manager (.returned (some target)))
              | false => rfl
          | _ => rfl
      | returned target => cases action <;> rfl

/-- The manager does with the call that was made what it does without it. -/
theorem step?_withCall (hmade : made ≤ manager.nextId) (action : Action) :
    (manager.withCall made extra).step? (action.shifted made)
      = (manager.step? action).map (replyWithCall made extra) := by
  have hrunStep : ∀ id action, ((manager.withCall made extra).findRun? (shiftId made id)).bind
        ((manager.withCall made extra).runStep? · (Action.shifted made action))
      = ((manager.findRun? id).bind (manager.runStep? · action)).map
          (replyWithCall made extra) := by
    intro id action
    rw [findRun?_withCall hextra]
    cases manager.findRun? id with
    | none => rfl
    | some run => exact runStep?_withCall hextra manager run action
  have hjobStep : ∀ id action, ((manager.withCall made extra).findRun? (shiftId made id)).bind
        ((manager.withCall made extra).jobStep? · action)
      = ((manager.findRun? id).bind (manager.jobStep? · action)).map
          (replyWithCall made extra) := by
    intro id action
    rw [findRun?_withCall hextra]
    cases manager.findRun? id with
    | none => rfl
    | some run => exact jobStep?_withCall hextra manager run action
  cases action with
  | call invocation =>
      have hbefore : ¬ manager.nextId < made := Nat.not_lt.2 hmade
      simp only [step?, Option.map_some, replyWithCall, withCall, shiftId_succ hmade,
        List.filter_append, List.map_append, List.append_assoc, List.cons_append]
      have hlast : [manager.newRun invocation].filter (fun run => decide (run.id < made)) = [] := by
        simp [newRun, hbefore]
      have hfirst : [manager.newRun invocation].filter (fun run => decide (made ≤ run.id))
          = [manager.newRun invocation] := by
        simp [newRun, hmade]
      rw [hlast, hfirst]
      rfl
  | callStop =>
      simp only [step?, Option.map_some, replyWithCall, withCall, Action.shifted, List.map_append]
      rfl
  | look index | stop index | stopReturns index =>
      show (((manager.withCall made extra).stopStep? _ (Action.shifted made _)).map (·, [])) = _
      rw [stopStep?_withCall hextra]
      show _ = ((manager.stopStep? _ _).map (·, [])).map _
      rw [Option.map_map, Option.map_map]
      rfl
  | job id jobAction =>
      cases jobAction with
      | kill => rfl
      | execute =>
          simp only [step?, Action.shifted, findRun?_withCall hextra, Option.bind_eq_bind]
          cases manager.findRun? id with
          | none => rfl
          | some run =>
              simp only [Option.map_some, Option.bind_some, Run.shifted_point,
                RunPoint.shifted_eq_executing, jobStep?_withCall hextra]
              split <;> rfl
      | _ => exact hjobStep id _
  | choose id => exact hrunStep id (.choose id)
  | replace id => exact hrunStep id (.replace id)
  | resume id => exact hrunStep id (.resume id)
  | conclude id => exact hrunStep id (.conclude id)
  | finish id => exact hrunStep id (.finish id)
  | leave id => exact hrunStep id (.leave id)

/-- Histories go on with the call that was made as they go on without it. -/
theorem run?_withCall (hmade : made ≤ manager.nextId) (actions : List Action) :
    (manager.withCall made extra).run? (actions.map (Action.shifted made))
      = (manager.run? actions).map (replyWithCall made extra) := by
  induction actions generalizing manager with
  | nil => rfl
  | cons action actions ih =>
      simp only [run?, List.map_cons, Machine.run?, step?_withCall hextra hmade,
        Option.bind_eq_bind]
      cases hfirst : manager.step? action with
      | none => rfl
      | some reply =>
          have hnext := (Step.of_step? hfirst).settings_nextId.2
          have hrest := ih (Nat.le_trans hmade hnext)
          simp only [run?] at hrest
          simp only [Option.map_some, Option.bind_some, replyWithCall, hrest]
          cases Machine.run? step? reply.1 actions <;> rfl

end Calls

end BuildManager

end Toolbench
