import Toolbench.Proofs.Build.Refusal
import Toolbench.Proofs.Build.RunEvents
import Toolbench.Proofs.Job.Cancellation

/-!
# When a call to stop returns

A call to stop asks the build that it finds to end and waits for the end, if it was allowed to ask.
`stop_returned` says what is known when it returns: the build has ended, unless the call was not
allowed because the job had not begun yet or somebody else had asked it to end. In these two cases
it returns at once, and the build goes on (`stop_returned_early`). Read `Step.stop_cases` first,
which says when a call to stop returns at all.
-/

namespace Toolbench

namespace BuildManager

open Build

variable {manager next : BuildManager} {action : Action} {outputs : List Output}
  {run : Run} {index target : Nat}

/-- To ask a build to end leaves the calls to stop as they are. -/
@[simp] theorem kill_stops (manager : BuildManager) (target : Nat) :
    (manager.kill target).2.stops = manager.stops := by
  rcases manager.kill_cases target with heq | ⟨run, -, -, -, heq⟩
  · rw [heq]
  · rw [heq]
    rfl

/-- A call that is not allowed to ask leaves everything as it is, and the job of the build does not
run or was asked before. -/
theorem kill_refused (h : (manager.kill target).1 = false) :
    (manager.kill target).2 = manager ∧ ∀ run, manager.findRun? target = some run →
      ¬ (run.job.control.state = .running ∧ run.job.control.interrupted = false) := by
  rcases manager.kill_cases target with heq | ⟨run, -, -, -, heq⟩
  · rw [heq]
    refine ⟨rfl, fun run hrun hallowed => ?_⟩
    simp [kill, hrun, Job.Control.acceptKill?, hallowed] at h
  · rw [heq] at h
    cases h

/-- A call to stop finds builds of calls only. -/
def Finds (manager : BuildManager) : Prop :=
  ∀ point ∈ manager.stops, ∀ target, point.target? = some target →
    target ∈ manager.runs.map Run.id

/-- A call to stop goes to a point where it knows of a build of a call, or of none. -/
theorem Finds.setStop (h : manager.Finds) (index : Nat) {point : StopPoint}
    (hpoint : ∀ target, point.target? = some target → target ∈ manager.runs.map Run.id) :
    (manager.setStop index point).Finds := by
  intro other hother
  rcases List.mem_or_eq_of_mem_set hother with hold | rfl
  · exact h other hold
  · exact hpoint

/-- The builds that calls to stop found are still those of calls when no call is forgotten. -/
theorem Finds.congr (h : manager.Finds) (hstops : next.stops = manager.stops)
    (hids : next.runs.map Run.id = manager.runs.map Run.id) : next.Finds := by
  unfold Finds
  rw [hstops, hids]
  exact h

namespace Step

/-- Every step lets calls to stop find builds of calls only. -/
theorem finds (h : Step manager action next outputs) (hflight : SingleFlight manager)
    (hfinds : manager.Finds) : next.Finds := by
  cases h with
  | call invocation =>
      intro point hpoint target htarget
      rw [List.map_append]
      exact List.mem_append_left _ (hfinds point hpoint target htarget)
  | take run | skip run | refuse run | stopOther run | resume run | conclude run
  | concludeMissing run | finish run | leave run => exact hfinds.congr rfl (setRun_ids manager _)
  | replace run target =>
      refine hfinds.congr (kill_stops manager target) ?_
      rw [setRun_ids, kill_ids]
  | job run action job told =>
      obtain ⟨collection, heq⟩ := manager.jobStep_eq run job told
      rw [heq]
      exact hfinds.congr rfl (setRun_ids manager _)
  | callStop =>
      intro point hpoint target htarget
      rcases List.mem_append.1 hpoint with hold | hnew
      · exact hfinds point hold target htarget
      · rw [List.mem_singleton.1 hnew] at htarget
        cases htarget
  | look index =>
      refine hfinds.setStop index fun target htarget => ?_
      cases hslot : manager.slot with
      | none =>
          rw [hslot] at htarget
          cases htarget
      | some slot =>
          rw [hslot] at htarget
          cases htarget
          obtain ⟨holder, hholder, hsame, -⟩ := hflight.held slot hslot
          exact hsame ▸ List.mem_map_of_mem hholder
  | stop index target hpoint =>
      have hfound := hfinds _ (List.mem_of_getElem? hpoint) target rfl
      have hkept := hfinds.congr (kill_stops manager target) (kill_ids manager target)
      refine hkept.setStop index fun other hother => ?_
      rw [kill_ids]
      split at hother
      all_goals
        cases hother
        exact hfound
  | stopReturns index target hpoint =>
      refine hfinds.setStop index fun other hother => ?_
      cases hother
      exact hfinds _ (List.mem_of_getElem? hpoint) target rfl

/-- A call to stop that found a build returns because it was not allowed to ask that build to end,
or because the call that asked has waited for the end. -/
theorem stop_cases (h : Step manager action next outputs)
    (hold : manager.stops[index]? ≠ some (.returned (some target)))
    (hnew : next.stops[index]? = some (.returned (some target))) :
    next.runs = manager.runs ∧
      (manager.stops[index]? = some (.stopping target) ∧ action = .stop index ∧
          (manager.kill target).1 = false ∨
        manager.stops[index]? = some (.awaiting target) ∧ manager.killReturned target = true) := by
  -- Only the call whose turn it is changes.
  have hturn : ∀ {other : Nat} {point : StopPoint},
      (manager.stops.set other point)[index]? = some (.returned (some target)) →
      other = index ∧ point = .returned (some target) := by
    intro other point hset
    by_cases hother : other = index
    · rw [hother, List.getElem?_set_self'] at hset
      obtain ⟨_, -, hpoint⟩ := Option.map_eq_some_iff.1 hset
      exact ⟨hother, hpoint⟩
    · rw [List.getElem?_set_ne hother] at hset
      exact absurd hset hold
  cases h with
  | look other =>
      obtain ⟨-, hpoint⟩ := hturn hnew
      split at hpoint <;> cases hpoint
  | stop other found hpoint =>
      simp only [setStop, kill_stops] at hnew
      obtain ⟨rfl, hreturned⟩ := hturn hnew
      split at hreturned
      · cases hreturned
      · rename_i hrefused
        cases hreturned
        have hrefused := Bool.eq_false_iff.2 hrefused
        have hruns : (manager.kill target).2.runs = manager.runs :=
          congrArg runs (kill_refused hrefused).1
        exact ⟨hruns, .inl ⟨hpoint, rfl, hrefused⟩⟩
  | stopReturns other found hpoint hreturned =>
      obtain ⟨rfl, heq⟩ := hturn hnew
      cases heq
      exact ⟨rfl, .inr ⟨hpoint, hreturned⟩⟩
  | replace run found =>
      have hsame : (manager.kill found).2.stops[index]? = some (.returned (some target)) := hnew
      rw [kill_stops] at hsame
      exact absurd hsame hold
  | job run action job told =>
      obtain ⟨collection, heq⟩ := manager.jobStep_eq run job told
      rw [heq] at hnew
      exact absurd hnew hold
  | callStop =>
      have hmore : (manager.stops ++ [.looking])[index]? = some (.returned (some target)) := hnew
      rw [List.getElem?_append] at hmore
      split at hmore
      · exact absurd hmore hold
      · cases List.mem_singleton.1 (List.mem_of_getElem? hmore)
  | _ => exact absurd hnew hold

end Step

/-- After every history calls to stop have found builds of calls only. -/
theorem finds_run {settings : BuildSettings} {env : Environment} {actions : List Action}
    (hrun : (ofSettings settings env).run? actions = some (manager, outputs)) : manager.Finds := by
  have hkept := Machine.run?_keeps step?
    (P := fun manager => SingleFlight manager ∧ manager.Finds)
    (fun manager action next outputs h hstep =>
      ⟨h.1.step (.of_step? hstep), (Step.of_step? hstep).finds h.1 h.2⟩)
    hrun ⟨.initial settings env, fun _ hpoint => absurd hpoint List.not_mem_nil⟩
  exact hkept.2

/-- When a call to stop returns, the build that it found in the slot has ended, unless the call was
not allowed to ask it to end and did not wait, because the job had not begun or had been asked to
end before. -/
theorem stop_returned {settings : BuildSettings} {env : Environment} {actions : List Action}
    {past later : List (Machine.Event BuildManager Action Output)}
    {event : Machine.Event BuildManager Action Output} {index target : Nat}
    (hpast : Machine.trace step? (ofSettings settings env) actions = past ++ event :: later)
    (hold : event.before.stops[index]? ≠ some (.returned (some target)))
    (hnew : event.after.stops[index]? = some (.returned (some target))) :
    ∃ run ∈ event.after.runs, run.id = target ∧
      (run.job.isFinished = true ∨ event.action = .stop index ∧
        (run.job.control.state = .idle ∨ run.job.control.interrupted = true)) := by
  obtain ⟨earlier, told, hearlier, rfl, hstep⟩ := Machine.exists_run_of_append step? hpast
  have hchronicle := chronicle_run hearlier
  have hfinds := finds_run hearlier
  obtain ⟨hruns, hcause⟩ := (Step.of_step? hstep).stop_cases hold hnew
  have hfound : target ∈ event.before.runs.map Run.id := by
    rcases hcause with ⟨hpoint, -⟩ | ⟨hpoint, -⟩ <;>
      exact hfinds _ (List.mem_of_getElem? hpoint) target rfl
  obtain ⟨run, hmem, rfl⟩ := List.mem_map.1 hfound
  have hrun := findRun?_of_mem hchronicle.flight.nodup hmem
  refine ⟨run, hruns ▸ hmem, rfl, ?_⟩
  rcases hcause with ⟨-, haction, hrefused⟩ | ⟨-, hreturned⟩
  · have hnot := (kill_refused hrefused).2 run hrun
    rcases (hchronicle.flight.coherent run hmem).state_cases with ⟨hidle, -⟩ | hrunning | hfinished
    · exact .inr ⟨haction, .inl hidle⟩
    · refine .inr ⟨haction, .inr ?_⟩
      by_contra hflag
      exact hnot ⟨hrunning, Bool.eq_false_iff.2 hflag⟩
    · exact .inl hfinished
  · have hkiller : run.job.killer = .returned := by simpa [killReturned, hrun] using hreturned
    obtain ⟨_, _, _, hjob, -⟩ := (hchronicle.recounts run hmem).history
    exact .inl (Job.awaited_run hjob hkiller)

/-- Two calls to stop find one running build. The first one asks it to end and waits. The second one
is not allowed to ask and returns while the build goes on, and so does a call that finds a build
whose job has not begun. -/
theorem stop_returned_early :
    let call : List Action := [.call ⟨"build", [], ⟨"w"⟩⟩, .choose 1]
    let begin : List Action :=
      [.job 1 .execute, .job 1 .announce, .job 1 (.spawn (.ok 7)), .job 1 .recordPid]
    let outcome (actions : List Action) :=
      ((ofSettings .standard []).run? actions).map fun reply =>
        (reply.1.stops, reply.1.runs.map fun run => run.job.control.state)
    outcome (call ++ begin ++ [.callStop, .callStop, .look 0, .look 1, .stop 0, .stop 1])
        = some ([.awaiting 1, .returned (some 1)], [.running]) ∧
      outcome (call ++ [.callStop, .look 0, .stop 0] ++ begin)
        = some ([.returned (some 1)], [.running]) := by
  intro call begin outcome
  exact ⟨by decide +kernel, by decide +kernel⟩

end BuildManager

end Toolbench
