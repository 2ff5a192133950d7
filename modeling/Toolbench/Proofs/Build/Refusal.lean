import Toolbench.Proofs.Build.Handover
import Toolbench.Proofs.Build.Numbering

/-!
# A refused build changes nothing

A call that finds a build active returns under two of the policies. `RefusedWith` says what that
is: whatever others do from then on, they can do exactly when they can do it without the call, with
the same events and updates told, and the manager that they leave is the same one with the call in
its list (`withCall`). The call is counted, so the numbers of later calls move by one. Read
`Known.run?_tried` first: a manager speaks of numbers of calls only (`Known`), so until the call
looks into the slot nobody sees it, and it finds the slot that is there without it.
-/

namespace Toolbench

/-- Nobody but its own call can do anything with a job before it is executed. -/
theorem Job.step?_ofCommand (command : Command) {action : Job.Action} (hexecute : action ≠ .execute)
    (hkill : action ≠ .kill) : (Job.ofCommand command).step? action = none := by
  cases action with
  | execute => exact absurd rfl hexecute
  | kill => exact absurd rfl hkill
  | write stream | close stream | read stream | readEnd stream => cases stream <;> rfl
  | _ => rfl

namespace Build

variable {made : Nat}

/-- The build that the call is about to ask to end, or waits for. -/
def RunPoint.target? : RunPoint → Option Nat
  | .stopping target | .awaiting target => some target
  | _ => none

/-- The build that the call to stop found. -/
def StopPoint.target? : StopPoint → Option Nat
  | .looking => none
  | .stopping target | .awaiting target => some target
  | .returned target => target

/-- An action of another call is one that the call has without the call that was made. -/
theorem exists_shifted {action : Action} (h : action.run? ≠ some made) :
    ∃ before, Action.shifted made before = action := by
  have hshift : ∀ {id : Nat}, some id ≠ some made → ∃ before, shiftId made before = id :=
    fun hne => exists_shiftId fun heq => hne (congrArg some heq)
  cases action with
  | choose id =>
      obtain ⟨before, rfl⟩ := hshift h
      exact ⟨.choose before, rfl⟩
  | replace id =>
      obtain ⟨before, rfl⟩ := hshift h
      exact ⟨.replace before, rfl⟩
  | resume id =>
      obtain ⟨before, rfl⟩ := hshift h
      exact ⟨.resume before, rfl⟩
  | job id action =>
      obtain ⟨before, rfl⟩ := hshift h
      exact ⟨.job before action, rfl⟩
  | conclude id =>
      obtain ⟨before, rfl⟩ := hshift h
      exact ⟨.conclude before, rfl⟩
  | finish id =>
      obtain ⟨before, rfl⟩ := hshift h
      exact ⟨.finish before, rfl⟩
  | leave id =>
      obtain ⟨before, rfl⟩ := hshift h
      exact ⟨.leave before, rfl⟩
  | call invocation => exact ⟨.call invocation, rfl⟩
  | callStop => exact ⟨.callStop, rfl⟩
  | look index => exact ⟨.look index, rfl⟩
  | stop index => exact ⟨.stop index, rfl⟩
  | stopReturns index => exact ⟨.stopReturns index, rfl⟩

end Build

namespace BuildManager

open Build

variable {manager next : BuildManager} {action : Action} {outputs : List Output} {made : Nat}
  {extra run : Run}

/-! ## Numbers that are in use -/

/-- Every number that a manager speaks of is that of a call. -/
structure Known (manager : BuildManager) : Prop where
  runs : ∀ run ∈ manager.runs, run.id < manager.nextId
  targets : ∀ run ∈ manager.runs, ∀ target, run.point.target? = some target →
    target < manager.nextId
  slot : ∀ slot, manager.slot = some slot → slot.id < manager.nextId
  stops : ∀ point ∈ manager.stops, ∀ target, point.target? = some target →
    target < manager.nextId

namespace Known

/-- A manager speaks of no number before its first build. -/
theorem initial (settings : BuildSettings) (env : Environment) :
    Known (ofSettings settings env) where
  runs _ hrun := absurd hrun List.not_mem_nil
  targets _ hrun := absurd hrun List.not_mem_nil
  slot slot hslot := nomatch (hslot : none = some slot)
  stops _ hpoint := absurd hpoint List.not_mem_nil

/-- A call changes and speaks of no new number. -/
theorem setRun (h : Known manager) (run : Run) (hid : run.id < manager.nextId)
    (htarget : ∀ target, run.point.target? = some target → target < manager.nextId) :
    Known (manager.setRun run) where
  runs other hother := by
    rcases mem_setRun_iff.1 hother with ⟨rfl, -⟩ | ⟨hold, -⟩
    · exact hid
    · exact h.runs other hold
  targets other hother := by
    rcases mem_setRun_iff.1 hother with ⟨rfl, -⟩ | ⟨hold, -⟩
    · exact htarget
    · exact h.targets other hold
  slot := h.slot
  stops := h.stops

/-- The slot changes and holds the build of a call. -/
theorem setSlot (h : Known manager) {slot : Option Slot}
    (hslot : ∀ taken, slot = some taken → taken.id < manager.nextId) :
    Known { manager with slot } :=
  ⟨h.runs, h.targets, hslot, h.stops⟩

/-- A build is asked to end. -/
theorem kill (h : Known manager) (target : Nat) : Known (manager.kill target).2 := by
  rcases manager.kill_cases target with heq | ⟨asked, hasked, -, -, heq⟩
  · rw [heq]
    exact h
  · rw [heq]
    have hmem := (mem_of_findRun? hasked).1
    exact h.setRun _ (h.runs asked hmem) (h.targets asked hmem)

/-- A call to stop goes to a point that speaks of no new number. -/
theorem setStop (h : Known manager) (index : Nat) {point : StopPoint}
    (htarget : ∀ target, point.target? = some target → target < manager.nextId) :
    Known (manager.setStop index point) where
  runs := h.runs
  targets := h.targets
  slot := h.slot
  stops other hother := by
    rcases List.mem_or_eq_of_mem_set hother with hold | rfl
    · exact h.stops other hold
    · exact htarget

end Known

/-- The active build is that of a call. -/
theorem Known.active (h : Known manager) {slot : Slot} (hactive : manager.active? = some slot) :
    slot.id < manager.nextId :=
  h.slot slot (Option.filter_eq_some_iff.1 hactive).1

/-- Every step of a manager speaks of calls only. -/
theorem Step.known (h : Known manager) (hstep : Step manager action next outputs) : Known next := by
  cases hstep with
  | call invocation =>
      refine ⟨fun run hrun => ?_, fun run hrun target htarget => ?_,
        fun slot hslot => Nat.lt_succ_of_lt (h.slot slot hslot),
        fun point hpoint target htarget => Nat.lt_succ_of_lt (h.stops point hpoint target htarget)⟩
      · rcases List.mem_append.1 hrun with hold | hnew
        · exact Nat.lt_succ_of_lt (h.runs run hold)
        · rw [List.mem_singleton.1 hnew]
          exact Nat.lt_succ_self _
      · rcases List.mem_append.1 hrun with hold | hnew
        · exact Nat.lt_succ_of_lt (h.targets run hold target htarget)
        · rw [List.mem_singleton.1 hnew] at htarget
          exact nomatch htarget
  | take run hrun =>
      have hid := h.runs run (mem_of_findRun? hrun).1
      refine (h.setRun { run with point := .executing } hid nofun).setSlot ?_
      rintro taken ⟨⟩
      exact hid
  | skip run _ hrun | refuse run _ hrun | resume run _ hrun | conclude run _ hrun
  | finish run _ hrun =>
      exact h.setRun _ (h.runs run (mem_of_findRun? hrun).1) nofun
  | concludeMissing run _ program hrun =>
      have hkept := h.setRun { run with point := .finishing (.toolMissing program) }
        (h.runs run (mem_of_findRun? hrun).1) nofun
      exact ⟨hkept.runs, hkept.targets, hkept.slot, hkept.stops⟩
  | stopOther run slot hrun _ hactive =>
      refine h.setRun _ (h.runs run (mem_of_findRun? hrun).1) ?_
      rintro target ⟨⟩
      exact h.active hactive
  | replace run target hrun hpoint =>
      have hmem := (mem_of_findRun? hrun).1
      refine (h.kill target).setRun _ ?_ fun other hother => ?_
      · rw [kill_nextId]
        exact h.runs run hmem
      · rw [kill_nextId]
        dsimp only at hother
        split at hother
        · cases hother
          exact h.targets run hmem target (by rw [hpoint]; rfl)
        · exact nomatch hother
  | job run action job told hrun =>
      have hmem := (mem_of_findRun? hrun).1
      obtain ⟨collection, heq⟩ := manager.jobStep_eq run job told
      have hkept := h.setRun
        { run with job, observer := (run.observer.observeAll told).1 }
        (h.runs run hmem) (h.targets run hmem)
      rw [heq]
      exact ⟨hkept.runs, hkept.targets, hkept.slot, hkept.stops⟩
  | leave run status hrun =>
      refine (h.setRun { run with point := .returned (.finished status) }
        (h.runs run (mem_of_findRun? hrun).1) nofun).setSlot fun taken htaken => ?_
      exact h.slot taken (Option.filter_eq_some_iff.1 htaken).1
  | callStop =>
      refine ⟨h.runs, h.targets, h.slot, fun point hpoint target htarget => ?_⟩
      rcases List.mem_append.1 hpoint with hold | hnew
      · exact h.stops point hold target htarget
      · rw [List.mem_singleton.1 hnew] at htarget
        exact nomatch htarget
  | look index =>
      refine h.setStop index fun target htarget => ?_
      cases hslot : manager.slot with
      | none =>
          rw [hslot] at htarget
          exact nomatch htarget
      | some slot =>
          rw [hslot] at htarget
          cases htarget
          exact h.slot slot hslot
  | stop index target hpoint =>
      have hknown := h.stops _ (List.mem_of_getElem? hpoint) target rfl
      refine (h.kill target).setStop index fun other hother => ?_
      rw [kill_nextId]
      split at hother
      all_goals
        cases hother
        exact hknown
  | stopReturns index target hpoint =>
      refine h.setStop index ?_
      rintro other ⟨⟩
      exact h.stops _ (List.mem_of_getElem? hpoint) target rfl

/-- Over a history a manager keeps its settings, and gives no number twice. -/
theorem settings_nextId_run {actions : List Action}
    (hrun : manager.run? actions = some (next, outputs)) :
    next.settings = manager.settings ∧ manager.nextId ≤ next.nextId := by
  refine Machine.run?_keeps step? (fun state action after told hkept hstep => ?_) hrun
    (P := fun state => state.settings = manager.settings ∧ manager.nextId ≤ state.nextId)
    ⟨rfl, Nat.le_refl _⟩
  obtain ⟨hsettings, hnext⟩ := (Step.of_step? hstep).settings_nextId
  exact ⟨hsettings.trans hkept.1, Nat.le_trans hkept.2 hnext⟩

/-- After every history a manager speaks of calls only. -/
theorem known_run {settings : BuildSettings} {env : Environment} {actions : List Action}
    (hrun : (ofSettings settings env).run? actions = some (manager, outputs)) : Known manager :=
  Machine.run?_keeps step? (fun _ _ _ _ h hstep => Step.known h (.of_step? hstep)) hrun
    (.initial settings env)

/-! ## The call that is refused -/

/-- Numbers before that of the call that was made stay. -/
theorem Known.shifted_eq (h : Known manager) :
    (∀ run ∈ manager.runs, run.shifted manager.nextId = run) ∧
      manager.slot.map (Slot.shifted manager.nextId) = manager.slot ∧
      manager.stops.map (StopPoint.shifted manager.nextId) = manager.stops := by
  refine ⟨fun run hrun => ?_, ?_, ?_⟩
  · have htarget := h.targets run hrun
    have hpoint : run.point.shifted manager.nextId = run.point := by
      cases hpoint : run.point with
      | stopping target | awaiting target =>
          rw [hpoint] at htarget
          rw [RunPoint.shifted, shiftId_of_lt (htarget target rfl)]
      | _ => rfl
    rw [Run.shifted, shiftId_of_lt (h.runs run hrun), hpoint]
  · cases hslot : manager.slot with
    | none => rfl
    | some slot => rw [Option.map_some, Slot.shifted, shiftId_of_lt (h.slot slot hslot)]
  · refine (List.map_congr_left fun point hpoint => ?_).trans (List.map_id _)
    have htarget := h.stops point hpoint
    cases point with
    | looking => rfl
    | stopping target | awaiting target =>
        rw [StopPoint.shifted, shiftId_of_lt (htarget target rfl), id]
    | returned target =>
        cases target with
        | none => rfl
        | some target =>
            rw [StopPoint.shifted, Option.map_some, shiftId_of_lt (htarget target rfl), id]

/-- A call that begins is a call that was made. -/
theorem Known.step?_call (h : Known manager) (invocation : Invocation) :
    manager.step? (.call invocation)
      = some (manager.withCall manager.nextId (manager.newRun invocation), []) := by
  obtain ⟨hruns, hslot, hstops⟩ := h.shifted_eq
  have hbefore : manager.runs.filter (fun run => decide (run.id < manager.nextId))
      = manager.runs :=
    List.filter_eq_self.2 fun run hrun => decide_eq_true (h.runs run hrun)
  have hafter : manager.runs.filter (fun run => decide (manager.nextId ≤ run.id)) = [] :=
    List.filter_eq_nil_iff.2 fun run hrun => by simpa using h.runs run hrun
  have hnext : shiftId manager.nextId manager.nextId = manager.nextId + 1 :=
    if_neg (Nat.lt_irrefl _)
  rw [withCall, hbefore, hafter, hslot, hstops, hnext, List.map_congr_left hruns, List.map_id']
  rfl

/-- The call that was made looks into the slot: it is refused where the policy says so. -/
theorem step?_choose_made (manager : BuildManager) (hextra : extra.id = made)
    (hpoint : extra.point = .choosing) :
    (manager.withCall made extra).step? (.choose made)
      = some (match manager.active? with
        | none => { manager.withCall made { extra with point := .executing } with
            slot := some ⟨made, extra.commandLine⟩ }
        | some slot => manager.withCall made { extra with
            point := match manager.settings.onBusy with
              | .ignore => .returned .skipped
              | .ask => .returned (.busy slot.commandLine)
              | .stop => .stopping (shiftId made slot.id) }, []) := by
  have hset : ∀ point : RunPoint, (manager.withCall made extra).setRun { extra with point }
      = manager.withCall made { extra with point } := fun point =>
    setRun_made hextra manager hextra
  simp only [step?, findRun?_made hextra, Option.bind_eq_bind, Option.bind_some, runStep?, hpoint,
    choose, active?_withCall hextra, hset]
  cases manager.active? with
  | none => simp only [Option.map_none, hextra]
  | some slot =>
      simp only [Option.map_some, withCall_settings]
      cases manager.settings.onBusy <;> rfl

/-- A call that has not looked into the slot yet, or was refused, does nothing but look. -/
theorem step?_made (hextra : extra.id = made) {command : Command}
    (hpoint : extra.point = .choosing ∨ ∃ result, extra.point = .returned result)
    (hjob : extra.job = .ofCommand command) (hturn : action.run? = some made)
    (hlook : extra.point = .choosing → action ≠ .choose made) :
    (manager.withCall made extra).step? action = none := by
  have hfound := findRun?_made hextra manager
  cases action with
  | call | callStop | look | stop | stopReturns => exact nomatch hturn
  | choose =>
      cases hturn
      rcases hpoint with hchoosing | ⟨result, hreturned⟩
      · exact absurd rfl (hlook hchoosing)
      · simp [step?, hfound, runStep?, hreturned]
  | replace | resume | conclude | finish | leave =>
      cases hturn
      rcases hpoint with hpoint | ⟨result, hpoint⟩ <;> simp [step?, hfound, runStep?, hpoint]
  | job id jobAction =>
      cases hturn
      -- Its job has not begun, and it is not at the point where it would begin.
      have hnone : jobAction ≠ .execute → jobAction ≠ .kill →
          (manager.withCall made extra).jobStep? extra jobAction = none := by
        intro hexecute hkill
        rw [jobStep?, hjob, Job.step?_ofCommand command hexecute hkill]
        rfl
      cases jobAction with
      | kill => rfl
      | execute =>
          rcases hpoint with hpoint | ⟨result, hpoint⟩ <;> simp [step?, hfound, hpoint]
      | _ => simp [step?, hfound, hnone]

/-- A call to run a build is made, others act, and the call looks into the slot. -/
def tried (manager : BuildManager) (invocation : Invocation) (between : List Action) :
    List Action :=
  .call invocation :: between.map (Action.shifted manager.nextId) ++ [.choose manager.nextId]

/-- A call that looks into the slot finds it as it is without the call. -/
theorem Known.run?_tried (h : Known manager) (invocation : Invocation) {between : List Action}
    {now : BuildManager} {told : List Output} (hbetween : manager.run? between = some (now, told)) :
    manager.run? (manager.tried invocation between)
      = some (match now.active? with
        | none => { now.withCall manager.nextId
            { manager.newRun invocation with point := .executing } with
            slot := some ⟨manager.nextId, (manager.newRun invocation).commandLine⟩ }
        | some slot => now.withCall manager.nextId { manager.newRun invocation with
            point := match now.settings.onBusy with
              | .ignore => .returned .skipped
              | .ask => .returned (.busy slot.commandLine)
              | .stop => .stopping (shiftId manager.nextId slot.id) }, told) := by
  have hnumber : (manager.newRun invocation).id = manager.nextId := rfl
  have hmiddle : (manager.withCall manager.nextId (manager.newRun invocation)).run?
        (between.map (Action.shifted manager.nextId))
      = some (now.withCall manager.nextId (manager.newRun invocation), told) := by
    rw [run?_withCall hnumber (Nat.le_refl _), hbetween]
    rfl
  have hlast := now.step?_choose_made hnumber rfl
  have hrest := Machine.run?_append_eq step? hmiddle [.choose manager.nextId]
  rw [Machine.run?_singleton, hlast, Option.map_some, List.append_nil] at hrest
  rw [tried, List.cons_append, run?, Machine.run?, h.step?_call invocation]
  simp only [Option.bind_eq_bind, Option.bind_some, hrest]
  rfl

/-- While a call that was made does nothing, what is done is done by others. -/
theorem exists_others (hextra : extra.id = made) {later : List Action}
    (hsilent : ∀ action ∈ later, action.run? = some made →
      ∀ manager : BuildManager, (manager.withCall made extra).step? action = none)
    (hmade : made ≤ manager.nextId)
    (hlater : ((manager.withCall made extra).run? later).isSome = true) :
    ∃ others : List Action, later = others.map (Action.shifted made) := by
  induction later generalizing manager with
  | nil => exact ⟨[], rfl⟩
  | cons action later ih =>
      obtain ⟨hfirst, hrest⟩ := List.forall_mem_cons.1 hsilent
      by_cases hturn : action.run? = some made
      · rw [run?, Machine.run?, hfirst hturn] at hlater
        cases hlater
      · obtain ⟨before, rfl⟩ := exists_shifted hturn
        obtain ⟨final, hfinal⟩ := Option.isSome_iff_exists.1 hlater
        obtain ⟨next, first, rest, hstep, hrun, -⟩ := (Machine.run?_cons_eq_some step?).1 hfinal
        rw [step?_withCall hextra hmade] at hstep
        obtain ⟨reply, hreply, heq⟩ := Option.map_eq_some_iff.1 hstep
        cases heq
        have hnext := (Step.of_step? hreply).settings_nextId.2
        obtain ⟨others, rfl⟩ := ih hrest (Nat.le_trans hmade hnext)
          (Option.isSome_iff_exists.2 ⟨_, hrun⟩)
        exact ⟨before :: others, rfl⟩

namespace SingleFlight

/-- The active build is that of a call that holds the slot, and its job has not ended. -/
theorem holder_of_active (h : SingleFlight manager) {slot : Slot}
    (hactive : manager.active? = some slot) :
    ∃ holder ∈ manager.runs, slot = ⟨holder.id, holder.commandLine⟩ ∧
      manager.slot = some ⟨holder.id, holder.commandLine⟩ ∧ holder.point = .executing ∧
      holder.job.isFinished = false := by
  obtain ⟨hslot, hopen⟩ := Option.filter_eq_some_iff.1 hactive
  obtain ⟨holder, hholder, hsame, hholds⟩ := h.held slot hslot
  have hrunning : holder.job.isFinished = false := by
    rw [← hsame, hasEnded, findRun?_of_mem h.nodup hholder] at hopen
    simpa using hopen
  cases hpoint : holder.point with
  | executing =>
      have hown : manager.slot = some ⟨holder.id, holder.commandLine⟩ :=
        h.fits_at hholder hpoint hrunning
      exact ⟨holder, hholder, Option.some.inj (hslot.symm.trans hown), hown, hpoint, hrunning⟩
  | finishing status | leaving status =>
      have hended : holder.job.isFinished = true := h.fits_at hholder hpoint
      cases hrunning.symm.trans hended
  | choosing | stopping target | awaiting target | returned result =>
      rw [hpoint] at hholds
      cases hholds

/-- No build is active exactly when the slot is empty or its build has ended. -/
theorem isFree_iff (h : SingleFlight manager) : manager.IsFree ↔ manager.active? = none := by
  refine ⟨fun hfree => ?_, h.isFree_of_active?⟩
  cases hactive : manager.active? with
  | none => rfl
  | some slot =>
      obtain ⟨holder, hholder, rfl, hslot, -, hrunning⟩ := h.holder_of_active hactive
      obtain ⟨ended, hended, hsame, hfinished⟩ := hfree _ hslot
      rw [h.eq_of_id hended hholder hsame] at hfinished
      exact nomatch hrunning.symm.trans hfinished

end SingleFlight

/-- What it is for a call to be refused: it returns a result, and the manager goes on as if the call
had not been made. -/
structure RefusedWith (manager : BuildManager) (invocation : Invocation) (between : List Action)
    (now : BuildManager) (told : List Output) (result : RunResult) : Prop where
  /-- Whatever others do from then on is possible when it is without the call, has told the same
  events and updates, and leaves the same manager but for the call in its list. -/
  same : ∀ rest : List Action,
    manager.run? (manager.tried invocation between ++ rest.map (Action.shifted manager.nextId))
      = (now.run? rest).map fun reply => (reply.1.withCall manager.nextId
          { manager.newRun invocation with point := .returned result }, told ++ reply.2)
  /-- The call itself does nothing more. -/
  silent : ∀ later : List Action,
    (manager.run? (manager.tried invocation between ++ later)).isSome = true →
      ∃ rest : List Action, later = rest.map (Action.shifted manager.nextId)

/-- A call that has returned with a refusal is refused. -/
theorem RefusedWith.of_run {invocation : Invocation} {between : List Action} {now : BuildManager}
    {told : List Output} {result : RunResult} (hnext : manager.nextId ≤ now.nextId)
    (htried : manager.run? (manager.tried invocation between)
      = some (now.withCall manager.nextId
          { manager.newRun invocation with point := .returned result }, told)) :
    manager.RefusedWith invocation between now told result where
  same rest := by
    have hnumber : ({ manager.newRun invocation with
        point := .returned result } : Run).id = manager.nextId := rfl
    rw [run?, Machine.run?_append_eq step? htried]
    show (run? _ _).map _ = _
    rw [run?_withCall hnumber hnext, Option.map_map]
    rfl
  silent later hlater := by
    have hnumber : ({ manager.newRun invocation with
        point := .returned result } : Run).id = manager.nextId := rfl
    rw [run?, Machine.run?_append_eq step? htried, Option.isSome_map] at hlater
    refine exists_others hnumber (fun action _ hturn other => ?_) hnext hlater
    exact step?_made hnumber (.inr ⟨result, rfl⟩) rfl hturn fun hpoint => by cases hpoint

/-- A call to run a build, made after any history, while others act as they like until it looks into
the slot. If a build is active then, the slot is that of a call whose job has not ended; the
policies that refuse return, one with the command line of that call, and nothing is changed by it:
collection, events, updates, slot and every job go on as without the call. If the slot is empty or
its build has ended, the call takes the slot whatever the policy. -/
theorem refused_changes_nothing {settings : BuildSettings} {env : Environment}
    {actions : List Action} {manager : BuildManager} {outputs : List Output}
    (hrun : (ofSettings settings env).run? actions = some (manager, outputs))
    (invocation : Invocation) :
    (∀ middle : List Action, (manager.run? (.call invocation :: middle)).isSome = true →
      (∀ action ∈ middle, action ≠ .choose manager.nextId) →
      ∃ between : List Action, middle = between.map (Action.shifted manager.nextId)) ∧
    ∀ (between : List Action) (now : BuildManager) (told : List Output),
      manager.run? between = some (now, told) →
      (¬ now.IsFree → ∃ holder ∈ now.runs, now.slot = some ⟨holder.id, holder.commandLine⟩ ∧
        holder.point = .executing ∧ holder.job.isFinished = false ∧
        (settings.onBusy = .ignore →
          manager.RefusedWith invocation between now told .skipped) ∧
        (settings.onBusy = .ask →
          manager.RefusedWith invocation between now told (.busy holder.commandLine))) ∧
      (now.IsFree → ∃ next, manager.run? (manager.tried invocation between) = some (next, told) ∧
        next.slot = some ⟨manager.nextId, (manager.commandFor invocation).display⟩ ∧
        next.Executes manager.nextId) := by
  have hknown := known_run hrun
  refine ⟨fun middle hmiddle hlook => ?_, fun between now told hbetween => ?_⟩
  · obtain ⟨final, hfinal⟩ := Option.isSome_iff_exists.1 hmiddle
    obtain ⟨next, first, rest, hcall, hmiddle, -⟩ := (Machine.run?_cons_eq_some step?).1 hfinal
    rw [hknown.step?_call invocation] at hcall
    cases hcall
    have hnumber : (manager.newRun invocation).id = manager.nextId := rfl
    refine exists_others hnumber (fun action haction hturn other => ?_) (Nat.le_refl _)
      (Option.isSome_iff_exists.2 ⟨_, hmiddle⟩)
    exact step?_made hnumber (.inl rfl) rfl hturn fun _ => hlook action haction
  have hnow := Machine.run?_append step? hrun hbetween
  have hflight : SingleFlight now := .of_run hnow
  have hsettings : now.settings = settings :=
    (settings_nextId_run hbetween).1.trans (settings_nextId_run hrun).1
  have hnext := (settings_nextId_run hbetween).2
  have htried := hknown.run?_tried invocation hbetween
  constructor
  · intro hbusy
    cases hactive : now.active? with
    | none => exact absurd (hflight.isFree_iff.2 hactive) hbusy
    | some slot =>
        obtain ⟨holder, hholder, rfl, hslot, hpoint, hrunning⟩ := hflight.holder_of_active hactive
        rw [hactive, hsettings] at htried
        refine ⟨holder, hholder, hslot, hpoint, hrunning, fun hpolicy => ?_, fun hpolicy => ?_⟩
        all_goals
          rw [hpolicy] at htried
          exact .of_run hnext htried
  · intro hfree
    rw [hflight.isFree_iff.1 hfree] at htried
    refine ⟨_, htried, rfl, { manager.newRun invocation with point := .executing }, ?_, rfl, rfl⟩
    exact List.mem_append_right _ (List.mem_cons_self ..)

/-- A call that finds a build whose process has ended but whose output is still being read, while
another call waits for its turn: it is refused, and the other call takes the slot later on as it
would have. Once the job is settled the same call takes the slot, which was not given back yet. -/
theorem refused_changes_nothing_draining :
    let settings : BuildSettings := { BuildSettings.standard with onBusy := .ask }
    let build : Invocation := ⟨"build", [], ⟨"/w"⟩⟩
    let check : Invocation := ⟨"check", [], ⟨"/w"⟩⟩
    let actions : List Action :=
      [.call build, .choose 1, .job 1 .execute, .job 1 .announce, .job 1 (.spawn (.ok 7)),
        .job 1 .recordPid, .job 1 (.takePipes none)]
    let between : List Action :=
      [.job 1 (.write .out [120, 10]), .call build, .job 1 (.childEnds (some 0)),
        .job 1 (.reap none), .job 1 .sweep, .job 1 (.read .out 2)]
    let ends : List Action :=
      [.job 1 (.close .out), .job 1 (.close .err), .job 1 (.readEnd .err), .job 1 (.readEnd .out),
        .job 1 .dispatch, .job 1 .drain, .job 1 .settle]
    let rest : List Action :=
      ends ++ [.choose 2, .job 1 .reportExit, .conclude 1, .finish 1, .leave 1]
    ∃ manager outputs now told free later,
      (ofSettings settings []).run? actions = some (manager, outputs) ∧
      manager.run? between = some (now, told) ∧
      manager.RefusedWith check between now told (.busy "cargo build --message-format json") ∧
      (now.run? rest).map (·.1.slot) = some (some ⟨2, "cargo build --message-format json"⟩) ∧
      manager.run? (between ++ ends) = some (free, later) ∧ free.slot.isSome = true ∧
      ∃ next, manager.run? (manager.tried check (between ++ ends)) = some (next, later) ∧
        next.slot = some ⟨2, "cargo check --message-format json"⟩ := by
  intro settings build check actions between ends rest
  have hhistory : (((ofSettings settings []).run? actions).elim false fun first =>
      (first.1.nextId == 2) &&
      ((first.1.commandFor check).display == "cargo check --message-format json") &&
      ((first.1.run? between).elim false fun second =>
        (second.1.active? == some ⟨1, "cargo build --message-format json"⟩) &&
        ((second.1.run? rest).map (·.1.slot)
          == some (some ⟨2, "cargo build --message-format json"⟩))) &&
      ((first.1.run? (between ++ ends)).elim false fun third =>
        (third.1.active? == none) && third.1.slot.isSome)) = true := by
    decide +kernel
  cases hrun : (ofSettings settings []).run? actions with
  | none => exact nomatch hrun ▸ hhistory
  | some first =>
      rw [hrun] at hhistory
      cases hbetween : first.1.run? between with
      | none => simp [hbetween] at hhistory
      | some second =>
          cases hends : first.1.run? (between ++ ends) with
          | none => simp [hends] at hhistory
          | some third =>
              simp only [hbetween, hends, Option.elim_some, Bool.and_eq_true, beq_iff_eq]
                at hhistory
              obtain ⟨⟨⟨hnext, hdisplay⟩, hactive, hrest⟩, hfree, hslot⟩ := hhistory
              have hnow : SingleFlight second.1 := .of_run (Machine.run?_append step? hrun hbetween)
              have hthen : SingleFlight third.1 := .of_run (Machine.run?_append step? hrun hends)
              have hlaw := (refused_changes_nothing hrun check).2
              have hbusy : ¬ second.1.IsFree := fun hfree =>
                nomatch hactive.symm.trans (hnow.isFree_iff.1 hfree)
              obtain ⟨holder, -, hholds, -, -, -, hasked⟩ := (hlaw _ _ _ hbetween).1 hbusy
              obtain ⟨next, htaken, hnewer, -⟩ := (hlaw _ _ _ hends).2 (hthen.isFree_iff.2 hfree)
              have hline : holder.commandLine = "cargo build --message-format json" := by
                have hsame := (Option.filter_eq_some_iff.1 hactive).1
                exact congrArg Slot.commandLine (Option.some.inj (hholds.symm.trans hsame))
              rw [hline] at hasked
              rw [hnext, hdisplay] at hnewer
              exact ⟨first.1, first.2, second.1, second.2, third.1, third.2, rfl, hbetween,
                hasked rfl, hrest, hends, hslot, next, htaken, hnewer⟩

end BuildManager

end Toolbench
