import Toolbench.Proofs.Job.Step

/-!
# How the lock of a job and its executing call agree

What others know of a job stands in its `Control`, how far the call has come that executes it in
its `Point`. `Step.coherent` says that no step of any party sets them at odds, and `Step.section`
that each step does one of six things under the lock. Read `Point.Fits` first: it says what is
known of the control and of the process at each point.
-/

namespace Toolbench.Job

/-- The first state may become the second: a job begins to run from rest and ends while it
runs. -/
inductive State.Moves : State → State → Prop where
  | stay (state : State) : Moves state state
  | start : Moves .idle .running
  | finish {state : State} (h : state.isFinished = true) : Moves .running state

/-- A finished job stays as it is. -/
theorem State.Moves.eq_of_finished {state next : State} (h : state.Moves next)
    (hfinished : state.isFinished = true) : next = state := by
  cases h with
  | stay => rfl
  | start | finish => exact nomatch hfinished

/-- The state of an outcome is a finished one. -/
theorem Outcome.isFinished_state (outcome : Outcome) : outcome.state.isFinished = true := by
  cases outcome <;> rfl

namespace Control

variable {control next : Control}

/-- A job that was asked to end is interrupted, however its process ended. -/
theorem settle_of_interrupted (h : control.interrupted = true) (waited : Waited) :
    control.settle waited
      = (.ok .interrupted, { control with state := .interrupted, pid := none }) := by
  simp only [settle, h, if_true, Outcome.state]

/-- A job that nobody asked to end is completed with the exit code of its process. -/
theorem settle_ok (h : control.interrupted = false) (code : Option Int) :
    control.settle (.ok code)
      = (.ok (.completed code), { control with state := .completed code, pid := none }) := by
  simp [settle, h, Except.map, Outcome.state]

/-- A job that nobody asked to end has failed when its process cannot be waited for. -/
theorem settle_error (h : control.interrupted = false) (cause : SystemError) :
    control.settle (.error cause)
      = (.error cause, { control with state := .failed, pid := none }) := by
  simp [settle, h, Except.map]

/-- When the process was waited for, there is an outcome. -/
theorem settle_ok_eq_ok (control : Control) (code : Option Int) :
    ∃ outcome, (control.settle (.ok code)).1 = .ok outcome := by
  cases hflag : control.interrupted with
  | true => exact ⟨_, congrArg Prod.fst (settle_of_interrupted hflag _)⟩
  | false => exact ⟨_, congrArg Prod.fst (settle_ok hflag code)⟩

/-- A settled job is finished. -/
theorem isFinished_settle (control : Control) (waited : Waited) :
    (control.settle waited).2.state.isFinished = true := by
  cases hflag : control.interrupted with
  | true => rw [settle_of_interrupted hflag]; rfl
  | false =>
      cases waited with
      | ok code => rw [settle_ok hflag]; rfl
      | error cause => rw [settle_error hflag]; rfl

/-- What one holder of the lock may do. -/
inductive Section (control : Control) : Control → Prop where
  | look : Section control control
  | enter (h : control.state = .idle) : Section control { control with state := .running }
  | recordPid (pid : Nat) : Section control (control.recordPid pid)
  | ask (h : control.state = .running) (hnew : control.interrupted = false) :
      Section control { control with interrupted := true }
  | fail (h : control.state = .running) : Section control control.fail
  | settle (waited : Waited) (h : control.state = .running) :
      Section control (control.settle waited).2

/-- Under the lock the state stays, begins to run or comes to an end. -/
theorem Section.moves (h : control.Section next) : control.state.Moves next.state := by
  cases h with
  | look | recordPid | ask => exact .stay _
  | enter hidle => exact hidle ▸ .start
  | fail hrunning => exact hrunning ▸ .finish rfl
  | settle waited hrunning => exact hrunning ▸ .finish (isFinished_settle control waited)

/-- Nobody takes back that a job was asked to end. -/
theorem Section.interrupted_mono (h : control.Section next) (hflag : control.interrupted = true) :
    next.interrupted = true := by
  cases h with
  | ask => rfl
  | look | enter | recordPid | fail | settle => exact hflag

/-- A job is asked to end only while it runs. -/
theorem Section.running_of_asked (h : control.Section next) (hold : control.interrupted = false)
    (hnew : next.interrupted = true) : control.state = .running := by
  cases h with
  | ask hrunning => exact hrunning
  | look | enter | recordPid | fail | settle => exact nomatch hold.symm.trans hnew

end Control

/-- The outcome is what the control says, and it is the right one: interrupted exactly when the
job was asked to end, and otherwise with the exit code of the process. -/
structure Outcome.Fits (outcome : Outcome) (control : Control) (child : Child) : Prop where
  state : control.state = outcome.state
  interrupted : control.interrupted = true ↔ outcome = .interrupted
  code : ∀ code, outcome = .completed code → child = .ended code

/-- The failure is one of a call that ran the job, and the control says so. A job that was asked to
end does not fail because its process cannot be waited for. -/
structure Failure.Fits (failure : Failure) (control : Control) : Prop where
  state : control.state = .failed
  ran : failure ≠ .alreadyStarted
  notAsked : ∀ program cause, failure = .wait program cause → control.interrupted = false

/-- What is known of the control and of the process when the executing call has come to a
point. -/
def Point.Fits (control : Control) (child : Child) : Point → Prop
  | .idle => control = .idle ∧ child = .absent
  | .entered | .announced => control.state = .running ∧ child = .absent
  | .spawned _ | .recorded | .abandoning _ | .looping => control.state = .running
  | .reaped waited | .draining waited | .drained waited =>
      control.state = .running ∧ ∀ code, waited = .ok code → child = .ended code
  | .settled outcome | .returned (.ok outcome) => outcome.Fits control child
  | .returned (.error failure) => failure.Fits control

namespace Point.Fits

variable {control : Control} {child : Child} {point : Point}

/-- A job is idle before the call, finished when the call has decided, and runs in between. -/
theorem state_cases (h : point.Fits control child) :
    control.state = .idle ∧ point = .idle ∨ control.state = .running ∨
      control.state.isFinished = true := by
  match point, h with
  | .idle, h =>
      left
      exact ⟨by rw [h.1]; rfl, rfl⟩
  | .entered, h | .announced, h | .reaped _, h | .draining _, h | .drained _, h =>
      right; left
      exact h.1
  | .spawned _, h | .recorded, h | .abandoning _, h | .looping, h =>
      right; left
      exact h
  | .settled outcome, h | .returned (.ok outcome), h =>
      right; right
      exact h.state ▸ outcome.isFinished_state
  | .returned (.error failure), h =>
      right; right
      exact h.state ▸ rfl

/-- The call has not been made when the job is idle. -/
theorem eq_idle (h : point.Fits control child) (hidle : control.state = .idle) : point = .idle := by
  rcases h.state_cases with ⟨-, hpoint⟩ | hrunning | hfinished
  · exact hpoint
  · exact nomatch hidle.symm.trans hrunning
  · rw [hidle] at hfinished
    exact nomatch hfinished

/-- Whoever asks a running job to end leaves its call where it is. -/
theorem ask (h : point.Fits control child) (hrunning : control.state = .running) :
    point.Fits { control with interrupted := true } child := by
  match point, h with
  | .idle, h => exact nomatch hrunning.symm.trans (congrArg Control.state h.1)
  | .entered, h | .announced, h | .reaped _, h | .draining _, h | .drained _, h => exact h
  | .spawned _, h | .recorded, h | .abandoning _, h | .looping, h => exact h
  | .settled outcome, h | .returned (.ok outcome), h =>
      have hfinished := outcome.isFinished_state
      rw [← h.state, hrunning] at hfinished
      exact nomatch hfinished
  | .returned (.error failure), h => exact nomatch hrunning.symm.trans h.state

/-- The process may end wherever the call is that runs it. -/
theorem ended {pid : Nat} (h : point.Fits control (.alive pid)) (code : Option Int) :
    point.Fits control (.ended code) := by
  match point, h with
  | .idle, h | .entered, h | .announced, h => exact nomatch h.2
  | .spawned _, h | .recorded, h | .abandoning _, h | .looping, h => exact h
  | .reaped _, h | .draining _, h | .drained _, h =>
      exact ⟨h.1, fun other hother => nomatch h.2 other hother⟩
  | .settled _, h | .returned (.ok _), h =>
      exact ⟨h.state, h.interrupted, fun other hother => nomatch h.code other hother⟩
  | .returned (.error _), h => exact h

end Point.Fits

/-- The control and the process are as the executing call left them. -/
def Coherent (job : Job) : Prop :=
  job.point.Fits job.control job.child

/-- What is known when the call of a coherent job is at a point. -/
theorem Coherent.fits_at {job : Job} {point : Point} (h : job.Coherent)
    (hpoint : job.point = point) : point.Fits job.control job.child :=
  hpoint ▸ h

/-- A job that is going to run a command is coherent. -/
theorem coherent_ofCommand (command : Command) : (ofCommand command).Coherent :=
  ⟨rfl, rfl⟩

variable {job next : Job} {action : Action} {told : List Callback}

@[simp] theorem setLane_control (job : Job) (stream : Stream) (lane : Lane) :
    (job.setLane stream lane).control = job.control := by
  cases stream <;> rfl

@[simp] theorem setLane_point (job : Job) (stream : Stream) (lane : Lane) :
    (job.setLane stream lane).point = job.point := by
  cases stream <;> rfl

@[simp] theorem setLane_child (job : Job) (stream : Stream) (lane : Lane) :
    (job.setLane stream lane).child = job.child := by
  cases stream <;> rfl

/-- A call that has a result has returned it. -/
theorem point_of_result? {result : Except Failure Outcome} (h : job.result? = some result) :
    job.point = .returned result := by
  unfold result? at h
  split at h
  · cases h
    assumption
  · exact nomatch h

theorem result?_of_point {result : Except Failure Outcome} (h : job.point = .returned result) :
    job.result? = some result := by
  rw [result?, h]

/-- When the call has returned the job is finished. -/
theorem Coherent.isFinished_of_result? {result : Except Failure Outcome} (h : job.Coherent)
    (hresult : job.result? = some result) : job.isFinished = true := by
  unfold result? at hresult
  split at hresult
  · rename_i hpoint
    cases hresult
    have hfits := h.fits_at hpoint
    unfold isFinished
    cases result with
    | ok outcome => rw [hfits.state, outcome.isFinished_state]
    | error failure => rw [hfits.state]; rfl
  · exact nomatch hresult

/-- What is decided fits what was waited for. -/
theorem Coherent.settle {waited : Waited} (h : job.Coherent) (hpoint : job.point = .drained waited) :
    match job.control.settle waited with
    | (.ok outcome, control) => outcome.Fits control job.child
    | (.error cause, control) => (Failure.wait job.command.program cause).Fits control := by
  obtain ⟨-, hwaited⟩ := h.fits_at hpoint
  -- Only the flag decides here: the process may have ended by itself and still be interrupted.
  cases hflag : job.control.interrupted with
  | true =>
      rw [Control.settle_of_interrupted hflag]
      exact ⟨rfl, iff_of_true hflag rfl, fun code hcode => nomatch hcode⟩
  | false =>
      cases waited with
      | ok code =>
          rw [Control.settle_ok hflag]
          refine ⟨rfl, iff_of_false (by rw [hflag]; exact nofun) nofun, fun other hother => ?_⟩
          cases hother
          exact hwaited code rfl
      | error cause =>
          rw [Control.settle_error hflag]
          exact ⟨rfl, nofun, fun _ _ _ => hflag⟩

/-- No step sets the control, the process and the call at odds. -/
theorem Step.coherent (h : Step job action next told) (hjob : job.Coherent) : next.Coherent := by
  have hfits : job.point.Fits job.control job.child := hjob
  cases h with
  | execute hidle => exact ⟨rfl, (hjob.fits_at (hfits.eq_idle hidle)).2⟩
  | announce hpoint | recordPid _ hpoint | takePipes hpoint | pipeMissing _ hpoint
  | sweep _ hpoint | drain _ hpoint | giveUp _ hpoint | reportExit _ hpoint =>
      have hknown := hjob.fits_at hpoint
      exact hknown
  | spawn pid hpoint => exact (hjob.fits_at hpoint).1
  | spawnFails | abandon => exact ⟨rfl, nofun, nofun⟩
  | reap code hpoint hchild =>
      have hrunning : job.control.state = .running := hjob.fits_at hpoint
      refine ⟨hrunning, fun other hother => ?_⟩
      cases hother
      exact hchild
  | reapFails cause hpoint =>
      have hrunning : job.control.state = .running := hjob.fits_at hpoint
      exact ⟨hrunning, nofun⟩
  | settle _ _ control hpoint hsettle | settleFails _ _ control hpoint hsettle =>
      have hdecided := hjob.settle hpoint
      rw [hsettle] at hdecided
      exact hdecided
  | kill hrunning => exact hfits.ask hrunning
  | childEnds pid code hchild =>
      rw [hchild] at hfits
      exact hfits.ended code
  | write | close | read | readEnd =>
      simpa only [Coherent, setLane_control, setLane_point, setLane_child] using hjob
  | _ => exact hjob

/-- Every step does one thing under the lock of a coherent job. -/
theorem Step.section (h : Step job action next told) (hjob : job.Coherent) :
    job.control.Section next.control := by
  cases h with
  | execute hidle => exact .enter hidle
  | spawnFails _ hpoint => exact .fail (hjob.fits_at hpoint).1
  | recordPid pid => exact .recordPid pid
  | abandon _ _ hpoint => exact .fail (hjob.fits_at hpoint)
  | settle waited _ control hpoint hsettle | settleFails waited _ control hpoint hsettle =>
      obtain rfl : control = (job.control.settle waited).2 := by rw [hsettle]
      exact .settle waited (hjob.fits_at hpoint).1
  | kill hrunning hnew => exact .ask hrunning hnew
  | write | close | read | readEnd =>
      simp only [setLane_control]
      exact .look
  | _ => exact .look

/-- A job is idle until the first call to execute it. -/
theorem Step.started_iff (h : Step job action next told) (hjob : job.Coherent) :
    next.control.state ≠ .idle ↔ job.control.state ≠ .idle ∨ action = .execute := by
  cases h with
  | execute => simp
  | executeAgain hstarted => simp [hstarted]
  | spawnFails _ hpoint =>
      have hrunning : job.control.state = .running := (hjob.fits_at hpoint).1
      simp [Control.fail, hrunning]
  | abandon _ _ hpoint =>
      have hrunning : job.control.state = .running := hjob.fits_at hpoint
      simp [Control.fail, hrunning]
  | settle waited _ control hpoint hsettle | settleFails waited _ control hpoint hsettle =>
      obtain rfl : control = (job.control.settle waited).2 := by rw [hsettle]
      have hfinished := Control.isFinished_settle job.control waited
      refine iff_of_true (fun hidle => ?_)
        (.inl (by rw [(hjob.fits_at hpoint).1]; exact nofun))
      rw [hidle] at hfinished
      exact nomatch hfinished
  | recordPid => simp [Control.recordPid]
  | _ => simp

end Toolbench.Job
