import Toolbench.Proofs.Job.LifeCycle

/-!
# A request to end a job is not lost

A job may be asked to end before its process exists, before the number of the process is recorded,
in the loop, in the drain, and when no signal can be sent. `request_heeded` says what becomes of the
request in every order of the steps, and `Cancellation` lists it. Read `Heeds` first: it is what
holds of the permit, of the signals and of the call that asks, and `Step.heeds` says that no step
breaks it. That there is a process to signal whenever a number is recorded is `Point.Registers`.
-/

namespace Toolbench.Job

open Machine (Event trace)

/-- The call that was allowed to ask has sent its signal, or has stored a permit instead. -/
def Killer.hasSignalled : Killer → Bool
  | .waiting | .forcing | .returned => true
  | .absent | .accepted _ => false

/-- The executing call is going to look, once more, whether the job was asked to end. -/
def Point.isBeforeSweep : Point → Bool
  | .idle | .entered | .announced | .spawned _ | .recorded | .looping | .reaped _ => true
  | .abandoning _ | .draining _ | .drained _ | .settled _ | .returned _ => false

/-- There was no process. -/
def Point.couldNotSpawn : Point → Bool
  | .returned (.error (.spawn _ _)) => true
  | _ => false

/-- Others can see the number of the process from its record until the call has decided, and there
is a process then. -/
def Point.Registers (control : Control) (child : Child) : Point → Prop
  | .idle | .entered | .announced | .settled _ | .returned _ => control.pid = none
  | .spawned _ => control.pid = none ∧ child ≠ .absent
  | .recorded | .abandoning _ | .looping | .reaped _ | .draining _ | .drained _ =>
      control.pid ≠ none ∧ child ≠ .absent

/-- The record of the number is as the executing call left it. -/
def Registered (job : Job) : Prop :=
  job.point.Registers job.control job.child

variable {job next : Job} {action : Action} {told : List Callback}

/-- What is known of the record when the call is at a point. -/
theorem Registered.registers_at {point : Point} (h : job.Registered) (hpoint : job.point = point) :
    point.Registers job.control job.child :=
  hpoint ▸ h

/-- The process may end wherever the call is. -/
theorem Point.Registers.ended {control : Control} {child : Child} {point : Point}
    (h : point.Registers control child) (code : Option Int) :
    point.Registers control (.ended code) := by
  cases point with
  | idle | entered | announced | settled | returned => exact h
  | spawned | recorded | abandoning | looping | reaped | draining | drained => exact ⟨h.1, nofun⟩

/-- Where a number is recorded there is a process. -/
theorem Registered.child_ne_absent (h : job.Registered) (hpid : job.control.pid ≠ none) :
    job.child ≠ .absent := by
  cases hpoint : job.point with
  | idle | entered | announced | settled | returned =>
      exact absurd (h.registers_at hpoint) hpid
  | spawned | recorded | abandoning | looping | reaped | draining | drained =>
      exact (h.registers_at hpoint).2

/-- No step sets the record of the number at odds with the process. -/
theorem Step.registered (h : Step job action next told) (hjob : job.Coherent)
    (hknown : job.Registered) : next.Registered := by
  have hfits : job.point.Fits job.control job.child := hjob
  cases h with
  | execute hidle =>
      have hnow := hknown.registers_at (hfits.eq_idle hidle)
      exact hnow
  | announce hpoint | takePipes hpoint | pipeMissing _ hpoint | reap _ hpoint | reapFails _ hpoint
  | sweep _ hpoint | drain _ hpoint | giveUp _ hpoint | reportExit _ hpoint =>
      have hnow := hknown.registers_at hpoint
      exact hnow
  | spawn pid hpoint => exact ⟨hknown.registers_at hpoint, nofun⟩
  | spawnFails | abandon => rfl
  | recordPid pid hpoint => exact ⟨nofun, (hknown.registers_at hpoint).2⟩
  | settle waited _ control _ hsettle | settleFails waited _ control _ hsettle =>
      obtain rfl : control = (job.control.settle waited).2 := by rw [hsettle]
      rfl
  | childEnds pid code => exact Point.Registers.ended hknown code
  | write | close | read | readEnd =>
      simpa only [Registered, setLane_control, setLane_point, setLane_child] using hknown
  | _ => exact hknown

/-! ## Permits and signals -/

@[simp] theorem setLane_permit (job : Job) (stream : Stream) (lane : Lane) :
    (job.setLane stream lane).permit = job.permit := by
  cases stream <;> rfl

@[simp] theorem setLane_killer (job : Job) (stream : Stream) (lane : Lane) :
    (job.setLane stream lane).killer = job.killer := by
  cases stream <;> rfl

@[simp] theorem setLane_signals (job : Job) (stream : Stream) (lane : Lane) :
    (job.setLane stream lane).signals = job.signals := by
  cases stream <;> rfl

/-- What holds of the permit, of the signals and of the call that asks the job to end. -/
structure Heeds (job : Job) : Prop where
  /-- Nobody stores a permit or signals unless the job was asked to end. -/
  asked : job.permit = true ∨ job.killer ≠ .absent → job.control.interrupted = true
  /-- A number that the call was given is that of a process. -/
  reaches : ∀ pid, job.killer = .accepted (some pid) → job.child ≠ .absent
  heeded : job.killer.hasSignalled = true →
    job.permit = true ∨ .interrupt ∈ job.signals ∨ .kill ∈ job.signals ∨
      ∃ code, job.child = .ended code
  unsent : job.killer.hasSignalled = false → .interrupt ∉ job.signals
  once : job.signals.count .interrupt ≤ 1

/-- Before anything was done there is nothing to heed. -/
theorem heeds_ofCommand (command : Command) : (ofCommand command).Heeds where
  asked h := by simp [ofCommand] at h
  reaches _ h := nomatch h
  heeded h := nomatch h
  unsent _ := List.not_mem_nil
  once := Nat.zero_le 1

namespace Heeds

/-- A job that was not asked to end has no call that asked. -/
theorem killer_eq_absent (h : job.Heeds) (hflag : job.control.interrupted = false) :
    job.killer = .absent :=
  Decidable.byContradiction fun hkiller => nomatch hflag.symm.trans (h.asked (.inr hkiller))

/-- Steps that leave the flag, the permit, the call that asks and the signals as they are. -/
theorem congr (h : job.Heeds) (hflag : next.control.interrupted = job.control.interrupted)
    (hpermit : next.permit = job.permit) (hkiller : next.killer = job.killer)
    (hsignals : next.signals = job.signals) (hchild : job.child ≠ .absent → next.child ≠ .absent)
    (hended : ∀ code, job.child = .ended code → next.child = .ended code) : next.Heeds where
  asked := by
    rw [hflag, hpermit, hkiller]
    exact h.asked
  reaches pid haccepted := hchild (h.reaches pid (hkiller ▸ haccepted))
  heeded hsignalled := by
    rw [hkiller] at hsignalled
    rw [hpermit, hsignals]
    refine (h.heeded hsignalled).imp_right (Or.imp_right (Or.imp_right fun ⟨code, hcode⟩ => ?_))
    exact ⟨code, hended code hcode⟩
  unsent := by
    rw [hkiller, hsignals]
    exact h.unsent
  once := by
    rw [hsignals]
    exact h.once

/-- The executing call kills the group, and may take the permit for it. -/
theorem killed (h : job.Heeds) (hflag : next.control.interrupted = job.control.interrupted)
    (hpermit : next.permit = true → job.permit = true) (hkiller : next.killer = job.killer)
    (hsignals : next.signals = .kill :: job.signals) (hchild : next.child = job.child) :
    next.Heeds where
  asked hasked := by
    rw [hflag]
    rw [hkiller] at hasked
    exact h.asked (hasked.imp_left hpermit)
  reaches := by
    rw [hkiller, hchild]
    exact h.reaches
  heeded _ := .inr (.inr (.inl (by rw [hsignals]; exact List.mem_cons_self)))
  unsent := by
    rw [hkiller, hsignals, List.mem_cons, not_or]
    exact fun hsilent => ⟨nofun, h.unsent hsilent⟩
  once := by
    rw [hsignals, List.count_cons_of_ne (by decide)]
    exact h.once

end Heeds

/-- No step loses the request to end. -/
theorem Step.heeds (h : Step job action next told) (hjob : job.Coherent) (hknown : job.Registered)
    (hheeds : job.Heeds) : next.Heeds := by
  cases h with
  | spawn pid hpoint =>
      have habsent : job.child = .absent := (hjob.fits_at hpoint).2
      exact hheeds.congr rfl rfl rfl rfl (absurd habsent) fun code hcode =>
        nomatch habsent.symm.trans hcode
  | pipeMissing => exact hheeds.killed rfl id rfl rfl rfl
  | force _ hpermit => exact hheeds.killed rfl (fun _ => hpermit) rfl rfl rfl
  | sweep waited =>
      by_cases hflag : job.control.interrupted = true
      · exact hheeds.killed rfl id rfl (if_pos hflag) rfl
      · exact hheeds.congr rfl rfl rfl (if_neg hflag) id fun _ => id
  | settle waited _ control _ hsettle | settleFails waited _ control _ hsettle =>
      obtain rfl : control = (job.control.settle waited).2 := by rw [hsettle]
      exact hheeds.congr rfl rfl rfl rfl id fun _ => id
  | kill hrunning hnew =>
      have hsilent : job.killer.hasSignalled = false := by
        rw [hheeds.killer_eq_absent hnew]
        rfl
      refine ⟨fun _ => rfl, fun pid haccepted => ?_, nofun, fun _ => hheeds.unsent hsilent,
        hheeds.once⟩
      have hpid : job.control.pid = some pid := Killer.accepted.inj haccepted
      exact hknown.child_ne_absent (by rw [hpid]; exact nofun)
  | signalStored _ pid hkiller =>
      have hflag := hheeds.asked (.inr (by rw [hkiller]; exact nofun))
      exact ⟨fun _ => hflag, nofun, fun _ => .inl rfl, nofun, hheeds.once⟩
  | signalSent pid hkiller =>
      have hflag := hheeds.asked (.inr (by rw [hkiller]; exact nofun))
      have hunsent : .interrupt ∉ job.signals := hheeds.unsent (by rw [hkiller]; rfl)
      refine ⟨fun _ => hflag, nofun, fun _ => .inr (.inl List.mem_cons_self), nofun, ?_⟩
      have hnone := List.count_eq_zero_of_not_mem hunsent
      rw [List.count_cons_self]
      omega
  | signalTooLate pid hkiller hchild =>
      have hflag := hheeds.asked (.inr (by rw [hkiller]; exact nofun))
      refine ⟨fun _ => hflag, nofun, fun _ => .inr (.inr (.inr ?_)), nofun, hheeds.once⟩
      -- The number was that of a process, so the process has ended.
      cases hprocess : job.child with
      | absent => exact absurd hprocess (hheeds.reaches pid hkiller)
      | alive alive => exact absurd hprocess (hchild alive)
      | ended code => exact ⟨code, rfl⟩
  | graceOver hkiller =>
      have hflag := hheeds.asked (.inr (by rw [hkiller]; exact nofun))
      exact ⟨fun _ => hflag, nofun, fun _ => .inl rfl, nofun, hheeds.once⟩
  | killReturns hkiller =>
      have hsignalled : job.killer.hasSignalled = true := by
        rcases hkiller with hkiller | hkiller <;> rw [hkiller] <;> rfl
      have hflag := hheeds.asked (.inr (by rcases hkiller with h | h <;> rw [h] <;> exact nofun))
      exact ⟨fun _ => hflag, nofun, fun _ => hheeds.heeded hsignalled, nofun, hheeds.once⟩
  | childEnds pid code hchild =>
      exact hheeds.congr rfl rfl rfl rfl (fun _ => nofun) fun other hother =>
        nomatch hchild.symm.trans hother
  | write | close | read | readEnd =>
      exact hheeds.congr (by simp) (by simp) (by simp) (by simp) (by simp) (by simp)
  | _ => exact hheeds.congr rfl rfl rfl rfl id fun _ => id

/-! ## What a request leads to -/

/-- The group was killed, or a permit to kill it is stored. -/
def Kills (job : Job) : Prop :=
  job.permit = true ∨ .kill ∈ job.signals

/-- The job was asked to end, and unless there was no process its group was killed at the latest
when the call looked whether it was asked. -/
structure Swept (job : Job) : Prop where
  asked : job.control.interrupted = true
  killed : job.point.isBeforeSweep = true ∨ job.point.couldNotSpawn = true ∨ .kill ∈ job.signals

namespace Step

/-- A step that signals does so because the job was asked to end or has to be abandoned. -/
theorem signals_cases (h : Step job action next told) (hheeds : job.Heeds) :
    next.signals = job.signals ∨
      (∃ signal, next.signals = signal :: job.signals) ∧
        (job.control.interrupted = true ∨ ∃ stream, action = .takePipes (some stream)) := by
  cases h with
  | pipeMissing stream => exact .inr ⟨⟨_, rfl⟩, .inr ⟨stream, rfl⟩⟩
  | force _ hpermit => exact .inr ⟨⟨_, rfl⟩, .inl (hheeds.asked (.inl hpermit))⟩
  | sweep =>
      by_cases hflag : job.control.interrupted = true
      · exact .inr ⟨⟨_, if_pos hflag⟩, .inl hflag⟩
      · exact .inl (if_neg hflag)
  | signalSent _ hkiller =>
      exact .inr ⟨⟨_, rfl⟩, .inl (hheeds.asked (.inr (by rw [hkiller]; exact nofun)))⟩
  | write | close | read | readEnd => exact .inl (by simp)
  | _ => exact .inl rfl

/-- A signal that was sent stays sent. -/
theorem mem_signals (h : Step job action next told) (hheeds : job.Heeds) {signal : GroupSignal}
    (hsent : signal ∈ job.signals) : signal ∈ next.signals := by
  rcases h.signals_cases hheeds with hsame | ⟨⟨other, hmore⟩, -⟩
  · rw [hsame]
    exact hsent
  · rw [hmore]
    exact List.mem_cons_of_mem other hsent

/-- A permit is used up only to kill the group. -/
theorem kills (h : Step job action next told) (hheeds : job.Heeds) (hkills : job.Kills) :
    next.Kills := by
  rcases hkills with hpermit | hsent
  · cases h with
    | force => exact .inr List.mem_cons_self
    | signalStored | graceOver => exact .inl rfl
    | write | close | read | readEnd => exact .inl ((setLane_permit _ _ _).trans hpermit)
    | _ => exact .inl hpermit
  · exact .inr (h.mem_signals hheeds hsent)

/-- What a call does that is allowed to ask the job to end: it is told the number of the process, if
that is recorded. -/
theorem of_asked (h : Step job action next told) (hold : job.control.interrupted = false)
    (hnew : next.control.interrupted = true) :
    job.control.state = .running ∧ next.point = job.point ∧
      next.killer = .accepted job.control.pid := by
  obtain rfl := h.eq_kill_of_asked hold hnew
  cases h with
  | kill hrunning => exact ⟨hrunning, rfl, rfl⟩
  | killRefused => exact nomatch hold.symm.trans hnew

/-- A job that was asked to end before the sweep is killed in the sweep, if not before. -/
theorem swept (h : Step job action next told) (hjob : job.Coherent) (hheeds : job.Heeds)
    (hswept : job.Swept) : next.Swept := by
  refine ⟨(h.section hjob).interrupted_mono hswept.asked, ?_⟩
  have hkept := hswept.killed.imp_right (Or.imp_right (h.mem_signals hheeds))
  cases h with
  | execute | announce | spawn | recordPid | takePipes | reap | reapFails => exact .inl rfl
  | spawnFails => exact .inr (.inl rfl)
  | pipeMissing | force => exact .inr (.inr List.mem_cons_self)
  | sweep =>
      refine .inr (.inr ?_)
      rw [if_pos hswept.asked]
      exact List.mem_cons_self
  | abandon _ _ hpoint | drain _ hpoint | giveUp _ hpoint | settle _ _ _ hpoint
  | settleFails _ _ _ hpoint | reportExit _ hpoint =>
      -- The sweep is over here, so the group was killed.
      rw [hpoint] at hkept
      exact .inr (.inr ((hkept.resolve_left nofun).resolve_left nofun))
  | write | close | read | readEnd => simpa only [setLane_point] using hkept
  | _ => exact hkept

/-- A call that was told no number leaves a permit. -/
theorem kills_unless_accepted (h : Step job action next told) (hheeds : job.Heeds)
    (hkills : job.killer = .accepted none ∨ job.Kills) :
    next.killer = .accepted none ∨ next.Kills := by
  rcases hkills with hkiller | hkills
  · cases h with
    | kill _ hnew => exact nomatch hkiller.symm.trans (hheeds.killer_eq_absent hnew)
    | signalStored => exact .inr (.inl rfl)
    | signalSent _ hother | signalTooLate _ hother => exact nomatch hkiller.symm.trans hother
    | graceOver => exact .inr (.inl rfl)
    | killReturns hother => simp [hkiller] at hother
    | write | close | read | readEnd => exact .inl ((setLane_killer _ _ _).trans hkiller)
    | _ => exact .inl hkiller
  · exact .inr (h.kills hheeds hkills)

end Step

/-- What every step of a job keeps for a request to end it. -/
structure Answerable (job : Job) : Prop where
  coherent : job.Coherent
  registered : job.Registered
  heeds : job.Heeds

/-- Every step keeps a job answerable. -/
theorem step?_answerable (job : Job) (action : Action) (next : Job) (told : List Callback)
    (hjob : job.Answerable) (h : job.step? action = some (next, told)) : next.Answerable :=
  have hstep := Step.of_step? h
  ⟨hstep.coherent hjob.coherent, hstep.registered hjob.coherent hjob.registered,
    hstep.heeds hjob.coherent hjob.registered hjob.heeds⟩

/-- A job that is going to run a command is answerable. -/
theorem answerable_ofCommand (command : Command) : (ofCommand command).Answerable :=
  ⟨coherent_ofCommand command, rfl, heeds_ofCommand command⟩

/-- A running job whose process has no number yet is before the sweep. -/
theorem Answerable.isBeforeSweep (h : job.Answerable) (hrunning : job.control.state = .running)
    (hpid : job.control.pid = none) : job.point.isBeforeSweep = true := by
  have hopen : job.control.state.isFinished = false := by rw [hrunning]; rfl
  cases hpoint : job.point with
  | idle | entered | announced | spawned | recorded | looping | reaped => rfl
  | abandoning | draining | drained => exact absurd hpid (h.registered.registers_at hpoint).1
  | settled outcome =>
      rw [(h.coherent.fits_at hpoint).state, outcome.isFinished_state] at hopen
      cases hopen
  | returned result =>
      have hfinished := h.coherent.isFinished_of_result? (result?_of_point hpoint)
      exact nomatch hfinished.symm.trans hopen

/-! ## The end of the call that asks -/

/-- The call that asked the job to end has returned only when the job was finished. -/
def Awaited (job : Job) : Prop :=
  job.killer = .returned → job.isFinished = true

/-- No step lets the call return too early. -/
theorem Step.awaited (h : Step job action next told) (hjob : job.Coherent)
    (hawaited : job.Awaited) : next.Awaited := by
  have hkept : job.isFinished = true → next.isFinished = true := by
    intro hfinished
    unfold isFinished at hfinished ⊢
    rw [(h.section hjob).moves.eq_of_finished hfinished]
    exact hfinished
  intro hreturned
  cases h with
  | kill | signalStored | signalSent | signalTooLate | graceOver => exact nomatch hreturned
  | killReturns _ hclosed => exact hclosed
  | write stream | close stream | read stream | readEnd stream =>
      cases stream <;> exact hkept (hawaited hreturned)
  | _ => exact hkept (hawaited hreturned)

/-! ## Histories from the making of a job -/

/-- A call that is allowed to ask sets the flag. -/
theorem of_asks {event : Event Job Action Callback} (h : asks event = true) :
    event.before.control.interrupted = false ∧ event.after.control.interrupted = true := by
  simpa only [asks, Bool.and_eq_true, Bool.not_eq_true'] using h

section Histories

variable {command : Command} {actions : List Action}
  (hrun : (ofCommand command).run? actions = some (job, told))
include hrun

/-- A job is answerable after every history. -/
theorem answerable_run : job.Answerable :=
  Machine.run?_keeps step? step?_answerable hrun (answerable_ofCommand command)

/-- A call that was told no number has not signalled yet, or it leads to a kill. -/
theorem kills_run (h : ∃ event ∈ trace step? (ofCommand command) actions,
    asks event = true ∧ event.before.control.pid = none) :
    job.killer = .accepted none ∨ job.Kills := by
  refine Machine.run?_event_mark step? step?_answerable
    (Q := fun job => job.killer = .accepted none ∨ job.Kills)
    (E := fun event => asks event = true ∧ event.before.control.pid = none)
    (fun job action next told hjob hstep hmark => ?_) hrun (answerable_ofCommand command) (.inr h)
  have hrule := Step.of_step? hstep
  rcases hmark with hkills | ⟨hasks, hpid⟩
  · exact hrule.kills_unless_accepted hjob.heeds hkills
  · obtain ⟨hold, hnew⟩ := of_asks hasks
    exact .inl ((hrule.of_asked hold hnew).2.2.trans (congrArg Killer.accepted hpid))

/-- A job that was asked to end before the sweep is killed in the sweep, if not before. -/
theorem swept_run (h : ∃ event ∈ trace step? (ofCommand command) actions,
    asks event = true ∧ event.before.point.isBeforeSweep = true) : job.Swept := by
  refine Machine.run?_event_mark step? step?_answerable (Q := Swept)
    (E := fun event => asks event = true ∧ event.before.point.isBeforeSweep = true)
    (fun job action next told hjob hstep hmark => ?_) hrun (answerable_ofCommand command) (.inr h)
  have hrule := Step.of_step? hstep
  rcases hmark with hswept | ⟨hasks, hbefore⟩
  · exact hrule.swept hjob.coherent hjob.heeds hswept
  · obtain ⟨hold, hnew⟩ := of_asks hasks
    exact ⟨hnew, .inl ((hrule.of_asked hold hnew).2.1 ▸ hbefore)⟩

/-- After every history the call that asked has waited for the end. -/
theorem awaited_run : job.Awaited := by
  have hkept := Machine.run?_keeps step? (P := fun job => job.Coherent ∧ job.Awaited)
    (fun job action next told hjob h =>
      ⟨step?_coherent job action next told hjob.1 h, (Step.of_step? h).awaited hjob.1 hjob.2⟩)
    hrun ⟨coherent_ofCommand command, nofun⟩
  exact hkept.2

end Histories

/-- What becomes of a request to end a job after a history that began when the job was made. -/
structure Cancellation (command : Command) (actions : List Action) (job : Job) : Prop where
  /-- When the call that was allowed to ask has signalled and the process lives, the group was sent
  a signal or a permit to kill it is stored. -/
  heeded : job.killer.hasSignalled = true → (∃ pid, job.child = .alive pid) →
    .interrupt ∈ job.signals ∨ .kill ∈ job.signals ∨ job.permit = true
  /-- A stored permit is there until the group is killed. -/
  kept : job.permit = true → ∀ more later told, job.run? more = some (later, told) →
    later.permit = true ∨ .kill ∈ later.signals
  /-- In the loop and in the drain the executing call may kill the group with it. -/
  served : job.permit = true → job.point.Serving →
    job.step? .force = some ({ job with permit := false, signals := .kill :: job.signals }, [])
  /-- A call that was told no number, because there was no process or its number was not recorded,
  leaves a permit or finds the group killed, and it asks before the sweep. -/
  early : ∀ event ∈ trace step? (ofCommand command) actions, asks event = true →
    event.before.control.pid = none → event.before.point.isBeforeSweep = true ∧
      (job.killer.hasSignalled = true → job.permit = true ∨ .kill ∈ job.signals)
  /-- When the job was asked to end before the sweep, then after the sweep, or after the command was
  abandoned, the group was killed, unless there was no process at all. -/
  swept : ∀ event ∈ trace step? (ofCommand command) actions, asks event = true →
    event.before.point.isBeforeSweep = true → job.point.isBeforeSweep = false →
      job.point.couldNotSpawn = false → .kill ∈ job.signals
  /-- A signal is sent only when a call was allowed to ask before, or to abandon a command without
  an output. -/
  asked : ∀ past event later, trace step? (ofCommand command) actions = past ++ event :: later →
    event.after.signals ≠ event.before.signals →
      (∃ request ∈ past, asks request = true) ∨ ∃ stream, event.action = .takePipes (some stream)
  /-- The group is interrupted at most once. -/
  once : job.signals.count .interrupt ≤ 1

/-- In whatever order the steps are taken, and whether signals can be sent or not, a request to end
a job is heeded as `Cancellation` says. -/
theorem request_heeded {command : Command} {actions : List Action} {job : Job}
    {told : List Callback} (hrun : (ofCommand command).run? actions = some (job, told)) :
    Cancellation command actions job := by
  have hstart := answerable_ofCommand command
  have hjob := answerable_run hrun
  constructor
  case heeded =>
    rintro hsignalled ⟨pid, halive⟩
    rcases hjob.heeds.heeded hsignalled with hpermit | hinterrupt | hkill | ⟨code, hended⟩
    · exact .inr (.inr hpermit)
    · exact .inl hinterrupt
    · exact .inr (.inl hkill)
    · exact nomatch halive.symm.trans hended
  case kept =>
    intro hpermit more later toldLater hmore
    have hlater := Machine.run?_keeps step? (P := fun job => job.Answerable ∧ job.Kills)
      (fun now action next told hnow hstep => ?_) hmore ⟨hjob, .inl hpermit⟩
    · exact hlater.2
    · exact ⟨step?_answerable _ _ _ _ hnow.1 hstep,
        (Step.of_step? hstep).kills hnow.1.heeds hnow.2⟩
  case served =>
    intro hpermit hserving
    generalize hpoint : job.point = point at hserving
    cases hserving with
    | looping | draining => simp [step?, executeStep?, hpoint, hpermit]
  case early =>
    intro event hevent hasks hpid
    obtain ⟨hbefore, hevents⟩ := Machine.of_mem_trace step? step?_answerable hstart hevent
    obtain ⟨hold, hnew⟩ := of_asks hasks
    obtain ⟨hrunning, -, -⟩ := (Step.of_step? hevents).of_asked hold hnew
    refine ⟨hbefore.isBeforeSweep hrunning hpid, fun hsignalled => ?_⟩
    refine (kills_run hrun ⟨event, hevent, hasks, hpid⟩).resolve_left fun hkiller => ?_
    rw [hkiller] at hsignalled
    cases hsignalled
  case swept =>
    intro event hevent hasks hbefore hpast hprocess
    have hswept := swept_run hrun ⟨event, hevent, hasks, hbefore⟩
    exact (hswept.killed.resolve_left (by simp [hpast])).resolve_left (by simp [hprocess])
  case asked =>
    intro past event later hpast hsignals
    obtain ⟨earlier, _, hearlier, rfl, hstep⟩ := Machine.exists_run_of_append step? hpast
    have hbefore := answerable_run hearlier
    refine (((Step.of_step? hstep).signals_cases hbefore.heeds).resolve_left hsignals).2.imp_left ?_
    exact (interrupted_iff_exists_asks hstart.coherent rfl hearlier).1
  case once => exact hjob.heeds.once

/-- A job is asked to end before its process exists. The permit waits for the loop, and the group is
killed there and again in the sweep. -/
theorem request_heeded_before_spawn :
    let actions : List Action :=
      [.execute, .announce, .kill, .signal (.ok .signalled), .spawn (.ok 7), .recordPid,
        .takePipes none, .graceOver, .force, .childEnds none, .reap none, .sweep]
    ∃ job, (ofCommand (.ofProgram "cargo")).run? actions = some (job, [.started]) ∧
      job.signals = [.kill, .kill] ∧ Cancellation (.ofProgram "cargo") actions job := by
  intro actions
  have hrun : (ofCommand (.ofProgram "cargo")).run? actions = some (_, _) := rfl
  exact ⟨_, rfl, rfl, request_heeded hrun⟩

end Toolbench.Job
