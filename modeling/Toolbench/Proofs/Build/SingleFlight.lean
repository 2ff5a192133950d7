import Toolbench.Proofs.Build.Step
import Toolbench.Proofs.Job.Coherence
import Toolbench.Proofs.Trace

/-!
# One build at a time, in every history

The slot of a manager and the jobs of its builds change under different locks, so between any two
actions another call may act. `SingleFlight` is what holds all the same: a job that runs has its
build in the slot, and a slot that is taken has a call that will give it back. Read
`SingleFlight.setRun` first: a call may change as it likes as long as it still fits the slot.
`at_most_one_build` draws the consequences.
-/

namespace Toolbench

namespace Build

/-- The call has taken the slot and not given it back yet. -/
def RunPoint.holds : RunPoint → Bool
  | .executing | .finishing _ | .leaving _ => true
  | _ => false

/-- What is known of a call to run a build at its point: its job does not begin before the slot is
taken, keeps the slot until it is finished, and is finished when the call goes on. -/
def RunPoint.Fits (slot : Option Slot) (run : Run) : RunPoint → Prop
  | .choosing | .stopping _ | .awaiting _ | .returned .skipped | .returned (.busy _) =>
      run.job.control.state = .idle
  | .executing => run.job.isFinished = false → slot = some ⟨run.id, run.commandLine⟩
  | .finishing _ | .leaving _ | .returned (.finished _) => run.job.isFinished = true

/-- The call fits another slot that is its own whenever the first one was. -/
theorem RunPoint.Fits.of_slot {slot slot' : Option Slot} {run : Run} {point : RunPoint}
    (h : point.Fits slot run)
    (hslot : run.job.isFinished = false → slot = some ⟨run.id, run.commandLine⟩ → slot' = slot) :
    point.Fits slot' run := by
  match point, h with
  | .choosing, h | .stopping _, h | .awaiting _, h | .returned .skipped, h
  | .returned (.busy _), h => exact h
  | .finishing _, h | .leaving _, h | .returned (.finished _), h => exact h
  | .executing, h => exact fun hopen => (hslot hopen (h hopen)).trans (h hopen)

end Build

namespace BuildManager

open Build

/-- What holds of a manager between any two actions. -/
structure SingleFlight (manager : BuildManager) : Prop where
  numbered : ∀ run ∈ manager.runs, run.id < manager.nextId
  nodup : (manager.runs.map Run.id).Nodup
  coherent : ∀ run ∈ manager.runs, run.job.Coherent
  fits : ∀ run ∈ manager.runs, run.point.Fits manager.slot run
  held : ∀ slot, manager.slot = some slot →
    ∃ run ∈ manager.runs, run.id = slot.id ∧ run.point.holds = true

/-- The slot is empty, or the job of the build in it has ended. -/
def IsFree (manager : BuildManager) : Prop :=
  ∀ slot, manager.slot = some slot →
    ∃ run ∈ manager.runs, run.id = slot.id ∧ run.job.isFinished = true

/-- The call with a number is registered: it has taken the slot for its job. -/
def Executes (manager : BuildManager) (id : Nat) : Prop :=
  ∃ run ∈ manager.runs, run.id = id ∧ run.point = .executing

/-- What an action may do with the slot. -/
structure SlotUse (before : BuildManager) (action : Action) (after : BuildManager) : Prop where
  /-- A call is registered by its own look into a free slot, which is its own from then on. -/
  registered : ∀ id, after.Executes id → before.Executes id ∨
    (action = .choose id ∧ before.IsFree ∧ ∃ slot, after.slot = some slot ∧ slot.id = id)
  /-- Nothing else puts a build into the slot. -/
  filled : ∀ slot, after.slot = some slot → before.slot = some slot ∨
    (action = .choose slot.id ∧ before.IsFree)
  /-- A build stays in the slot until its own call leaves, or until it has ended and another is
  registered. -/
  kept : ∀ slot, before.slot = some slot → after.slot = some slot ∨
    (action = .leave slot.id ∧ after.slot = none) ∨
    (before.IsFree ∧ ∃ newer, after.slot = some newer ∧ action = .choose newer.id)

/-- A call that is registered after another one changed was registered before, unless it is the
one that changed. -/
theorem executes_setRun {manager : BuildManager} {run : Run} {id : Nat}
    (h : (manager.setRun run).Executes id) :
    manager.Executes id ∨ (id = run.id ∧ run.point = .executing) := by
  obtain ⟨other, hother, hid, hpoint⟩ := h
  rcases mem_setRun_iff.1 hother with ⟨rfl, -⟩ | ⟨hold, -⟩
  · exact .inr ⟨hid.symm, hpoint⟩
  · exact .inl ⟨other, hold, hid, hpoint⟩

/-- To ask a build to end registers nothing. -/
theorem executes_kill {manager : BuildManager} {target id : Nat}
    (h : (manager.kill target).2.Executes id) : manager.Executes id := by
  rcases manager.kill_cases target with heq | ⟨run, hrun, -, -, heq⟩
  · rwa [heq] at h
  · rw [heq] at h
    rcases executes_setRun h with hold | ⟨rfl, hpoint⟩
    · exact hold
    · exact ⟨run, (mem_of_findRun? hrun).1, rfl, hpoint⟩

namespace SingleFlight

variable {manager : BuildManager} {run other : Run}

/-- A manager before its first build. -/
theorem initial (settings : BuildSettings) (env : Environment) :
    SingleFlight (ofSettings settings env) where
  numbered _ hrun := absurd hrun List.not_mem_nil
  nodup := List.nodup_nil
  coherent _ hrun := absurd hrun List.not_mem_nil
  fits _ hrun := absurd hrun List.not_mem_nil
  held slot hslot := nomatch (hslot : none = some slot)

/-- What holds of a manager is about its calls, its slot and its next number only. -/
theorem congr {next : BuildManager} (h : SingleFlight manager) (hnext : next.nextId = manager.nextId)
    (hruns : next.runs = manager.runs) (hslot : next.slot = manager.slot) : SingleFlight next where
  numbered := by
    rw [hruns, hnext]
    exact h.numbered
  nodup := by
    rw [hruns]
    exact h.nodup
  coherent := by
    rw [hruns]
    exact h.coherent
  fits := by
    rw [hruns, hslot]
    exact h.fits
  held := by
    rw [hruns, hslot]
    exact h.held

/-- What is known when a call is at a point. -/
theorem fits_at (h : SingleFlight manager) (hrun : run ∈ manager.runs) {point : RunPoint}
    (hpoint : run.point = point) : point.Fits manager.slot run :=
  hpoint ▸ h.fits run hrun

/-- Calls of one number are one call. -/
theorem eq_of_id (h : SingleFlight manager) (hrun : run ∈ manager.runs)
    (hother : other ∈ manager.runs) (hid : run.id = other.id) : run = other :=
  List.inj_on_of_nodup_map h.nodup hrun hother hid

/-- The call whose number is in the slot holds it. -/
theorem holds_of_slot (h : SingleFlight manager) (hrun : run ∈ manager.runs) {slot : Slot}
    (hslot : manager.slot = some slot) (hid : slot.id = run.id) : run.point.holds = true := by
  obtain ⟨holder, hholder, hsame, hholds⟩ := h.held slot hslot
  rwa [← h.eq_of_id hholder hrun (hsame.trans hid)]

/-- While the job of a call in the slot is not finished, its build is active. -/
theorem isFinished_of_free (h : SingleFlight manager) (hfree : manager.active? = none)
    (hrun : run ∈ manager.runs) (hslot : manager.slot = some ⟨run.id, run.commandLine⟩) :
    run.job.isFinished = true := by
  have hended : manager.hasEnded run.id = true := by
    simpa [active?, hslot] using hfree
  simpa [hasEnded, findRun?_of_mem h.nodup hrun] using hended

/-- A call may change, and the slot with it, when all calls fit the new slot and the slot has a
holder. -/
theorem setRun_slot (h : SingleFlight manager) {slot : Option Slot} (hjob : run.job.Coherent)
    (hfits : run.point.Fits slot run)
    (hothers : ∀ other ∈ manager.runs, other.id ≠ run.id → other.point.Fits slot other)
    (hheld : ∀ taken, slot = some taken →
      ∃ other ∈ (manager.setRun run).runs, other.id = taken.id ∧ other.point.holds = true) :
    SingleFlight { manager.setRun run with slot } where
  numbered other hother := by
    rcases mem_setRun_iff.1 hother with ⟨rfl, old, hold, hid⟩ | ⟨hold, -⟩
    · exact hid ▸ h.numbered old hold
    · exact h.numbered other hold
  nodup := by
    show ((manager.setRun run).runs.map Run.id).Nodup
    rw [setRun_ids]
    exact h.nodup
  coherent other hother := by
    rcases mem_setRun_iff.1 hother with ⟨rfl, -⟩ | ⟨hold, -⟩
    · exact hjob
    · exact h.coherent other hold
  fits other hother := by
    rcases mem_setRun_iff.1 hother with ⟨rfl, -⟩ | ⟨hold, hne⟩
    · exact hfits
    · exact hothers other hold hne
  held := hheld

/-- A call may change when it still fits the slot. -/
theorem setRun (h : SingleFlight manager) (hmem : ∃ old ∈ manager.runs, old.id = run.id)
    (hjob : run.job.Coherent) (hfits : run.point.Fits manager.slot run)
    (hheld : ∀ slot, manager.slot = some slot → slot.id = run.id → run.point.holds = true) :
    SingleFlight (manager.setRun run) := by
  refine h.setRun_slot hjob hfits (fun other hother _ => h.fits other hother) ?_
  intro slot hslot
  by_cases hid : slot.id = run.id
  · exact ⟨run, mem_setRun_iff.2 (.inl ⟨rfl, hmem⟩), hid.symm, hheld slot hslot hid⟩
  · obtain ⟨holder, hholder, hsame, hholds⟩ := h.held slot hslot
    have hne : holder.id ≠ run.id := fun heq => hid (hsame.symm.trans heq)
    exact ⟨holder, mem_setRun_iff.2 (.inr ⟨hholder, hne⟩), hsame, hholds⟩

/-- A call that does not hold the slot may go to any point that fits it. -/
theorem setPoint (h : SingleFlight manager) (hrun : run ∈ manager.runs) {point : RunPoint}
    (hfits : point.Fits manager.slot run) (hpoint : run.point.holds = false ∨ point.holds = true) :
    SingleFlight (manager.setRun { run with point }) := by
  refine h.setRun ⟨run, hrun, rfl⟩ (h.coherent run hrun) ?_ ?_
  · match point, hfits with
    | .choosing, hfits | .stopping _, hfits | .awaiting _, hfits | .returned .skipped, hfits
    | .returned (.busy _), hfits | .finishing _, hfits | .leaving _, hfits
    | .returned (.finished _), hfits | .executing, hfits => exact hfits
  · intro slot hslot hid
    rcases hpoint with hnot | hholds
    · exact nomatch hnot.symm.trans (h.holds_of_slot hrun hslot hid)
    · exact hholds

/-- The job of a call may take a step; it begins only at the right point. -/
theorem jobStep (h : SingleFlight manager) (hrun : run ∈ manager.runs) {job : Job}
    {action : Job.Action} {told : List Job.Callback} (hstep : Job.Step run.job action job told)
    (hexecute : action = .execute → run.point = .executing) (observer : Observer) :
    SingleFlight (manager.setRun { run with job, observer }) := by
  have hjob := h.coherent run hrun
  have hfits := h.fits run hrun
  have hmoves := (hstep.section hjob).moves
  -- A job that has not begun stays so unless its call is at the point where it executes.
  have hidle : run.point ≠ .executing → run.job.control.state = .idle →
      job.control.state = .idle := by
    intro hpoint hidle
    by_contra hnot
    rcases (hstep.started_iff hjob).1 hnot with hstarted | haction
    · exact hstarted hidle
    · exact hpoint (hexecute haction)
  have hfinished : run.job.isFinished = true → job.isFinished = true := by
    intro hfinished
    unfold Job.isFinished at hfinished ⊢
    rw [hmoves.eq_of_finished hfinished]
    exact hfinished
  have hheld : ∀ slot, manager.slot = some slot → slot.id = run.id → run.point.holds = true :=
    fun slot hslot hid => h.holds_of_slot hrun hslot hid
  refine h.setRun ⟨run, hrun, rfl⟩ (hstep.coherent hjob) ?_ hheld
  show run.point.Fits manager.slot { run with job, observer }
  match hpoint : run.point, hfits with
  | .choosing, hfits | .stopping _, hfits | .awaiting _, hfits | .returned .skipped, hfits
  | .returned (.busy _), hfits => exact hidle (by rw [hpoint]; exact nofun) hfits
  | .finishing _, hfits | .leaving _, hfits | .returned (.finished _), hfits =>
      exact hfinished hfits
  | .executing, hfits =>
      intro hopen
      exact hfits (Bool.eq_false_iff.2 fun hended => Bool.eq_false_iff.1 hopen (hfinished hended))

/-- A job may be asked to end. -/
theorem kill (h : SingleFlight manager) (target : Nat) : SingleFlight (manager.kill target).2 := by
  rcases manager.kill_cases target with heq | ⟨run, hrun, hrunning, hnew, heq⟩
  · rw [heq]
    exact h
  · rw [heq]
    exact h.jobStep (mem_of_findRun? hrun).1 (.kill hrunning hnew) nofun run.observer

/-- A new call has a new number and waits for the slot. -/
theorem call (h : SingleFlight manager) (invocation : Invocation) :
    SingleFlight { manager with
      nextId := manager.nextId + 1
      runs := manager.runs ++ [manager.newRun invocation] } where
  numbered run hrun := by
    rcases List.mem_append.1 hrun with hold | hnew
    · exact Nat.lt_succ_of_lt (h.numbered run hold)
    · rw [List.mem_singleton.1 hnew]
      exact Nat.lt_succ_self _
  nodup := by
    show ((manager.runs ++ [manager.newRun invocation]).map Run.id).Nodup
    rw [List.map_append, List.map_singleton, List.nodup_append]
    refine ⟨h.nodup, List.nodup_singleton _, ?_⟩
    intro id hid other hother heq
    obtain ⟨run, hrun, rfl⟩ := List.mem_map.1 hid
    rw [List.mem_singleton.1 hother] at heq
    exact absurd heq (Nat.ne_of_lt (h.numbered run hrun))
  coherent run hrun := by
    rcases List.mem_append.1 hrun with hold | hnew
    · exact h.coherent run hold
    · rw [List.mem_singleton.1 hnew]
      exact Job.coherent_ofCommand _
  fits run hrun := by
    rcases List.mem_append.1 hrun with hold | hnew
    · exact h.fits run hold
    · rw [List.mem_singleton.1 hnew]
      rfl
  held slot hslot := by
    obtain ⟨holder, hholder, hsame, hholds⟩ := h.held slot hslot
    exact ⟨holder, List.mem_append_left _ hholder, hsame, hholds⟩

/-- A call takes the slot that is empty or whose build has ended. -/
theorem take (h : SingleFlight manager) (hrun : run ∈ manager.runs)
    (hfree : manager.active? = none) :
    SingleFlight { manager.setRun { run with point := .executing } with
      slot := some ⟨run.id, run.commandLine⟩ } := by
  refine h.setRun_slot (h.coherent run hrun) (fun _ => rfl) ?_ ?_
  · -- Another call may still be executing, but only with a job that has ended.
    intro other hother _
    refine (h.fits other hother).of_slot fun hopen hslot => ?_
    exact nomatch hopen.symm.trans (h.isFinished_of_free hfree hother hslot)
  · intro taken htaken
    cases htaken
    exact ⟨_, mem_setRun_iff.2 (.inl ⟨rfl, run, hrun, rfl⟩), rfl, rfl⟩

/-- A call gives the slot back, unless a newer one has taken it. -/
theorem leave (h : SingleFlight manager) (hrun : run ∈ manager.runs) {status : Status}
    (hpoint : run.point = .leaving status) :
    SingleFlight { manager.setRun { run with point := .returned (.finished status) } with
      slot := manager.slot.filter (·.id ≠ run.id) } := by
  have hfinished : run.job.isFinished = true := h.fits_at hrun hpoint
  refine h.setRun_slot (h.coherent run hrun) hfinished ?_ ?_
  · intro other hother hne
    refine (h.fits other hother).of_slot fun _ hslot => ?_
    rw [hslot]
    simpa using hne
  · intro taken htaken
    obtain ⟨hslot, hother⟩ := Option.filter_eq_some_iff.1 htaken
    obtain ⟨holder, hholder, hsame, hholds⟩ := h.held taken hslot
    have hne : holder.id ≠ run.id := by
      rw [hsame]
      simpa using hother
    exact ⟨holder, mem_setRun_iff.2 (.inr ⟨hholder, hne⟩), hsame, hholds⟩

/-- A call asks the build that it found to end, and waits for it or looks again. -/
theorem replace (h : SingleFlight manager) (hrun : run ∈ manager.runs) {target : Nat}
    (hpoint : run.point = .stopping target) :
    SingleFlight ((manager.kill target).2.setRun
      { run with
        point := if (manager.kill target).1 then .awaiting target else .choosing }) := by
  have hidle : run.job.control.state = .idle := h.fits_at hrun hpoint
  refine (h.kill target).setRun ?_ (h.coherent run hrun) ?_ ?_
  · have hid : run.id ∈ (manager.kill target).2.runs.map Run.id := by
      rw [kill_ids]
      exact List.mem_map_of_mem hrun
    exact List.mem_map.1 hid
  · dsimp only
    split <;> exact hidle
  · -- The call that asks does not hold the slot, so the slot has another number.
    intro slot hslot hid
    rw [kill_slot] at hslot
    have hholds := h.holds_of_slot hrun hslot hid
    rw [hpoint] at hholds
    exact nomatch hholds

variable {next : BuildManager} {action : Action} {outputs : List Output}

/-- Every step of a manager keeps its builds apart. -/
theorem step (h : SingleFlight manager) (hstep : Step manager action next outputs) :
    SingleFlight next := by
  cases hstep with
  | call invocation => exact h.call invocation
  | take run hrun hpoint hfree => exact h.take (mem_of_findRun? hrun).1 hfree
  | skip run _ hrun hpoint | refuse run _ hrun hpoint | stopOther run _ hrun hpoint
  | resume run _ hrun hpoint =>
      have hmem := (mem_of_findRun? hrun).1
      have hidle : run.job.control.state = .idle := h.fits_at hmem hpoint
      exact h.setPoint hmem hidle (.inl (by rw [hpoint]; rfl))
  | replace run target hrun hpoint => exact h.replace (mem_of_findRun? hrun).1 hpoint
  | job run action job told hrun hexecute _ hstep =>
      obtain ⟨collection, heq⟩ := manager.jobStep_eq run job told
      rw [heq]
      have hkept := h.jobStep (mem_of_findRun? hrun).1 (.of_step? hstep) hexecute
        (run.observer.observeAll told).1
      exact hkept.congr rfl rfl rfl
  | conclude run result hrun hpoint hresult =>
      have hmem := (mem_of_findRun? hrun).1
      exact h.setPoint hmem ((h.coherent run hmem).isFinished_of_result? hresult) (.inr rfl)
  | concludeMissing run result program hrun hpoint hresult =>
      have hmem := (mem_of_findRun? hrun).1
      have hkept : SingleFlight (manager.setRun
          { run with point := .finishing (.toolMissing program) }) :=
        h.setPoint hmem ((h.coherent run hmem).isFinished_of_result? hresult) (.inr rfl)
      exact hkept.congr rfl rfl rfl
  | finish run status hrun hpoint =>
      have hmem := (mem_of_findRun? hrun).1
      have hfinished : run.job.isFinished = true := h.fits_at hmem hpoint
      exact h.setPoint hmem hfinished (.inr rfl)
  | leave run status hrun hpoint => exact h.leave (mem_of_findRun? hrun).1 hpoint
  | callStop | look | stopReturns => exact h.congr rfl rfl rfl
  | stop index target =>
      have hkept := h.kill target
      exact hkept.congr rfl rfl rfl

/-- After every history the builds of a manager are apart. -/
theorem of_run {settings : BuildSettings} {env : Environment} {actions : List Action}
    (hrun : (ofSettings settings env).run? actions = some (manager, outputs)) :
    SingleFlight manager :=
  Machine.run?_keeps BuildManager.step?
    (fun _ _ _ _ h hstep => h.step (.of_step? hstep)) hrun (initial settings env)

/-- A job that runs has its build in the slot. -/
theorem slot_of_isRunning (h : SingleFlight manager) (hrun : run ∈ manager.runs)
    (hrunning : run.job.isRunning = true) : manager.slot = some ⟨run.id, run.commandLine⟩ := by
  have hstate : run.job.control.state = .running := by simpa [Job.isRunning] using hrunning
  have hfinished : run.job.isFinished = false := by rw [Job.isFinished, hstate]; rfl
  have hfits := h.fits run hrun
  match hpoint : run.point, hfits with
  | .executing, hfits => exact hfits hfinished
  | .choosing, hfits | .stopping _, hfits | .awaiting _, hfits | .returned .skipped, hfits
  | .returned (.busy _), hfits => exact nomatch hstate.symm.trans hfits
  | .finishing _, hfits | .leaving _, hfits | .returned (.finished _), hfits =>
      exact nomatch hfinished.symm.trans hfits

/-- At most one job runs. -/
theorem length_isRunning_le_one (h : SingleFlight manager) :
    (manager.runs.filter (·.job.isRunning)).length ≤ 1 := by
  have hids : ((manager.runs.filter (·.job.isRunning)).map Run.id).Nodup :=
    h.nodup.sublist (List.filter_sublist.map Run.id)
  have hslot : ∀ run ∈ manager.runs.filter (·.job.isRunning),
      manager.slot = some ⟨run.id, run.commandLine⟩ := by
    intro run hrun
    obtain ⟨hmem, hrunning⟩ := List.mem_filter.1 hrun
    exact h.slot_of_isRunning hmem hrunning
  generalize manager.runs.filter (·.job.isRunning) = running at hids hslot ⊢
  match running with
  | [] => exact Nat.zero_le 1
  | [_] => exact Nat.le_refl 1
  | first :: second :: _ =>
      -- Two jobs that run would both have their builds in the slot.
      have hsame := (hslot first (by simp)).symm.trans (hslot second (by simp))
      simp only [Option.some.injEq, Slot.mk.injEq] at hsame
      simp [hsame.1] at hids

/-- When all calls have returned the slot is empty. -/
theorem slot_eq_none (h : SingleFlight manager)
    (hreturned : ∀ run ∈ manager.runs, ∃ result, run.point = .returned result) :
    manager.slot = none := by
  cases hslot : manager.slot with
  | none => rfl
  | some slot =>
      obtain ⟨run, hrun, -, hholds⟩ := h.held slot hslot
      obtain ⟨result, hpoint⟩ := hreturned run hrun
      rw [hpoint] at hholds
      exact nomatch hholds

/-- The slot that no active build is in is empty, or its build has ended. -/
theorem isFree_of_active? (h : SingleFlight manager) (hfree : manager.active? = none) :
    manager.IsFree := by
  intro slot hslot
  obtain ⟨holder, hholder, hsame, -⟩ := h.held slot hslot
  have hended : manager.hasEnded holder.id = true := by
    rw [hsame]
    simpa [active?, hslot] using hfree
  exact ⟨holder, hholder, hsame, by
    simpa [hasEnded, findRun?_of_mem h.nodup hholder] using hended⟩

end SingleFlight

/-! ## What actions do with the slot -/

namespace SlotUse

variable {manager next : BuildManager} {action : Action} {outputs : List Output}

/-- An action that leaves the slot as it is and registers no build. -/
theorem still (hslot : next.slot = manager.slot)
    (hruns : ∀ id, next.Executes id → manager.Executes id) : SlotUse manager action next where
  registered id hid := .inl (hruns id hid)
  filled _ h := .inl (hslot ▸ h)
  kept _ h := .inl (hslot.trans h)

/-- Every step uses the slot as it should. -/
theorem of_step (h : SingleFlight manager) (hstep : Step manager action next outputs) :
    SlotUse manager action next := by
  cases hstep with
  | call invocation =>
      refine still rfl fun id hid => ?_
      obtain ⟨run, hrun, hsame, hpoint⟩ := hid
      rcases List.mem_append.1 hrun with hold | hnew
      · exact ⟨run, hold, hsame, hpoint⟩
      · rw [List.mem_singleton.1 hnew] at hpoint
        exact nomatch hpoint
  | take run hrun hpoint hfree =>
      -- The look and the registration are one action, so the slot is free just before it.
      have hisFree := h.isFree_of_active? hfree
      constructor
      case registered =>
        intro id hid
        rcases executes_setRun hid with hold | ⟨rfl, -⟩
        · exact .inl hold
        · exact .inr ⟨rfl, hisFree, _, rfl, rfl⟩
      case filled =>
        intro slot hslot
        cases hslot
        exact .inr ⟨rfl, hisFree⟩
      case kept => exact fun slot _ => .inr (.inr ⟨hisFree, _, rfl, rfl⟩)
  | skip run | refuse run | stopOther run | resume run | conclude run | finish run =>
      exact still rfl fun id hid => (executes_setRun hid).resolve_right nofun
  | concludeMissing run =>
      exact still rfl fun id hid => (executes_setRun hid).resolve_right nofun
  | replace run target =>
      refine still (kill_slot manager target) fun id hid => ?_
      rcases executes_setRun hid with hold | ⟨-, hpoint⟩
      · exact executes_kill hold
      · dsimp only at hpoint
        split at hpoint <;> exact nomatch hpoint
  | job run action job told hrun =>
      obtain ⟨collection, heq⟩ := manager.jobStep_eq run job told
      rw [heq]
      refine still rfl fun id hid => ?_
      rcases executes_setRun hid with hold | ⟨rfl, hpoint⟩
      · exact hold
      · exact ⟨run, (mem_of_findRun? hrun).1, rfl, hpoint⟩
  | leave run status hrun =>
      constructor
      case registered => exact fun id hid => .inl ((executes_setRun hid).resolve_right nofun)
      case filled => exact fun slot hslot => .inl (Option.filter_eq_some_iff.1 hslot).1
      case kept =>
        intro slot hslot
        by_cases hown : slot.id = run.id
        · exact .inr (.inl ⟨by rw [hown], by simp [hslot, hown]⟩)
        · exact .inl (by simp [hslot, hown])
  | callStop | look | stopReturns => exact still rfl fun id hid => hid
  | stop index target => exact still (kill_slot manager target) fun id hid => executes_kill hid

end SlotUse

/-- A manager runs one build at a time, whatever its policy and however calls to run and to stop
builds, their jobs and the giving back of the slot take their turns: at most one job runs, and its
build is in the slot; every action uses the slot as `SlotUse` says; and when all calls have
returned, however their builds ended, the slot is empty and no build is active. -/
theorem at_most_one_build {settings : BuildSettings} {env : Environment} {actions : List Action}
    {manager : BuildManager} {outputs : List Output}
    (hrun : (ofSettings settings env).run? actions = some (manager, outputs)) :
    (manager.runs.filter (·.job.isRunning)).length ≤ 1 ∧
    (∀ run ∈ manager.runs, run.job.isRunning = true →
      manager.slot = some ⟨run.id, run.commandLine⟩) ∧
    (∀ event ∈ Machine.trace step? (ofSettings settings env) actions,
      SlotUse event.before event.action event.after) ∧
    ((∀ run ∈ manager.runs, ∃ result, run.point = .returned result) →
      manager.slot = none ∧ manager.isBusy = false) := by
  have h : SingleFlight manager := .of_run hrun
  refine ⟨h.length_isRunning_le_one, fun run hmem hrunning => h.slot_of_isRunning hmem hrunning,
    ?_, ?_⟩
  · intro event hevent
    obtain ⟨hbefore, hstep⟩ := Machine.of_mem_trace step?
      (fun _ _ _ _ h hstep => SingleFlight.step h (.of_step? hstep))
      (SingleFlight.initial settings env) hevent
    exact .of_step hbefore (.of_step? hstep)
  · intro hreturned
    have hslot := h.slot_eq_none hreturned
    exact ⟨hslot, by simp [isBusy, active?, hslot]⟩

/-- Two calls under the policy that stops the active build: the second one takes the slot between
the end of the first job and the moment when the first call gives the slot back. -/
theorem at_most_one_build_replaced :
    let settings : BuildSettings := { BuildSettings.standard with onBusy := .stop }
    let invocation : Invocation := ⟨"build", [], ⟨"w"⟩⟩
    let actions : List Action :=
      [.call invocation, .choose 1, .job 1 .execute, .job 1 .announce, .job 1 (.spawn (.ok 7)),
        .call invocation, .choose 2, .replace 2, .job 1 (.signal (.ok .signalled)),
        .job 1 .recordPid, .job 1 (.takePipes none), .job 1 (.childEnds none),
        .job 1 (.reap none), .job 1 .sweep, .job 1 .giveUp, .job 1 .settle, .job 1 .killReturns,
        .resume 2, .choose 2, .job 2 .execute, .job 1 .reportExit, .conclude 1, .finish 1,
        .leave 1, .job 2 .announce, .job 2 (.spawn (.error .notFound)), .conclude 2, .finish 2,
        .leave 2]
    ((ofSettings settings []).run? (actions.take 24)).map (·.1.slot.map Slot.id)
        = some (some 2) ∧
      ∃ manager outputs, (ofSettings settings []).run? actions = some (manager, outputs) ∧
        manager.slot = none ∧ manager.isBusy = false := by
  intro settings invocation actions
  refine ⟨by decide +kernel, ?_⟩
  have hreturned : (((ofSettings settings []).run? actions).elim false fun reply =>
      reply.1.runs.all fun run => run.point matches .returned _) = true := by
    decide +kernel
  cases hrun : (ofSettings settings []).run? actions with
  | none =>
      rw [hrun] at hreturned
      exact nomatch hreturned
  | some reply =>
      rw [hrun] at hreturned
      refine ⟨reply.1, reply.2, rfl, (at_most_one_build hrun).2.2.2 fun run hmem => ?_⟩
      have hpoint := List.all_eq_true.1 hreturned run hmem
      split at hpoint
      · rename_i result hresult
        exact ⟨result, hresult⟩
      · exact nomatch hpoint

end BuildManager

end Toolbench
