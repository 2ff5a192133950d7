import Toolbench.Job.Machine

/-!
# The steps of a job as rules

`Step job action next told` has one rule for each thing that a party of a job can do, with what
must hold before it and the whole state after it. `Step.of_step?` says that whatever `step?` does
is one of the rules; proofs about jobs go through the rules by cases.
-/

namespace Toolbench.Job

/-- The call is where it hands on lines and looks for permits: in the loop or in the drain. -/
inductive Point.Serving : Point → Prop where
  | looping : Serving .looping
  | draining (waited : Waited) : Serving (.draining waited)

/-- One rule for each thing that a party of a job can do. -/
inductive Step (job : Job) : Action → Job → List Callback → Prop where
  | execute (h : job.control.state = .idle) :
      Step job .execute
        { job with control := { job.control with state := .running }, point := .entered } []
  | executeAgain (h : job.control.state ≠ .idle) : Step job .execute job []
  | announce (h : job.point = .entered) :
      Step job .announce { job with point := .announced } [.started]
  | spawn (pid : Nat) (h : job.point = .announced) :
      Step job (.spawn (.ok pid)) { job with point := .spawned pid, child := .alive pid } []
  | spawnFails (cause : SystemError) (h : job.point = .announced) :
      Step job (.spawn (.error cause))
        { job with
          control := job.control.fail
          point := .returned (.error (.spawn job.command.program cause)) } []
  | recordPid (pid : Nat) (h : job.point = .spawned pid) :
      Step job .recordPid { job with control := job.control.recordPid pid, point := .recorded } []
  | takePipes (h : job.point = .recorded) :
      Step job (.takePipes none)
        { job with
          point := .looping
          out := { job.out with reading := true }
          err := { job.err with reading := true } } []
  | pipeMissing (stream : Stream) (h : job.point = .recorded) :
      Step job (.takePipes (some stream))
        { job with point := .abandoning stream, signals := .kill :: job.signals } []
  | abandon (stream : Stream) (code : Option Int) (h : job.point = .abandoning stream)
      (hchild : job.child = .ended code) :
      Step job .abandon
        { job with
          control := job.control.fail
          point := .returned (.error (.missingPipe stream)) } []
  | dispatch (stream : Stream) (text : String) (queue : List (Stream × String))
      (h : job.point.Serving) (hqueue : job.queue = (stream, text) :: queue) :
      Step job .dispatch { job with queue } [.line stream text]
  | force (h : job.point.Serving) (hpermit : job.permit = true) :
      Step job .force { job with permit := false, signals := .kill :: job.signals } []
  | reap (code : Option Int) (h : job.point = .looping) (hchild : job.child = .ended code) :
      Step job (.reap none) { job with point := .reaped (.ok code) } []
  | reapFails (cause : SystemError) (h : job.point = .looping) :
      Step job (.reap (some cause)) { job with point := .reaped (.error cause) } []
  | sweep (waited : Waited) (h : job.point = .reaped waited) :
      Step job .sweep
        { job with
          signals := if job.control.interrupted then .kill :: job.signals else job.signals
          point := .draining waited } []
  | drain (waited : Waited) (h : job.point = .draining waited) (hqueue : job.queue = [])
      (hout : job.out.reading = false) (herr : job.err.reading = false) :
      Step job .drain { job with point := .drained waited } []
  | giveUp (waited : Waited) (h : job.point = .draining waited) :
      Step job .giveUp { job with point := .drained waited } []
  | settle (waited : Waited) (outcome : Outcome) (control : Control)
      (h : job.point = .drained waited)
      (hsettle : job.control.settle waited = (.ok outcome, control)) :
      Step job .settle { job with control, point := .settled outcome } []
  | settleFails (waited : Waited) (cause : SystemError) (control : Control)
      (h : job.point = .drained waited)
      (hsettle : job.control.settle waited = (.error cause, control)) :
      Step job .settle
        { job with control, point := .returned (.error (.wait job.command.program cause)) } []
  | reportExit (outcome : Outcome) (h : job.point = .settled outcome) :
      Step job .reportExit { job with point := .returned (.ok outcome) } [.exited outcome]
  | kill (h : job.control.state = .running) (hnew : job.control.interrupted = false) :
      Step job .kill
        { job with
          control := { job.control with interrupted := true }
          killer := .accepted job.control.pid } []
  | killRefused (h : ¬ (job.control.state = .running ∧ job.control.interrupted = false)) :
      Step job .kill job []
  | signalStored (result : Except SystemError SignalOutcome) (pid : Option Nat)
      (h : job.killer = .accepted pid) (hpermit : pid = none ∨ ∃ cause, result = .error cause) :
      Step job (.signal result) { job with killer := .waiting, permit := true } []
  | signalSent (pid : Nat) (h : job.killer = .accepted (some pid)) :
      Step job (.signal (.ok .signalled))
        { job with killer := .waiting, signals := .interrupt :: job.signals } []
  | signalTooLate (pid : Nat) (h : job.killer = .accepted (some pid))
      (hchild : ∀ alive, job.child ≠ .alive alive) :
      Step job (.signal (.ok .notRunning)) { job with killer := .waiting } []
  | graceOver (h : job.killer = .waiting) (hopen : job.control.state.isFinished = false) :
      Step job .graceOver { job with killer := .forcing, permit := true } []
  | killReturns (h : job.killer = .waiting ∨ job.killer = .forcing)
      (hclosed : job.control.state.isFinished = true) :
      Step job .killReturns { job with killer := .returned } []
  | write (stream : Stream) (bytes : List UInt8) (hopen : (job.lane stream).isOpen = true)
      (hchild : job.child ≠ .absent) :
      Step job (.write stream bytes)
        (job.setLane stream
          { job.lane stream with unread := (job.lane stream).unread ++ bytes }) []
  | close (stream : Stream) (hchild : job.child ≠ .absent) :
      Step job (.close stream) (job.setLane stream { job.lane stream with isOpen := false }) []
  | childEnds (pid : Nat) (code : Option Int) (h : job.child = .alive pid) :
      Step job (.childEnds code) { job with child := .ended code } []
  | read (stream : Stream) (count : Nat) (chunk : List UInt8)
      (hreading : (job.lane stream).reading = true)
      (hchunk : chunk = (job.lane stream).unread.take (min count readSize))
      (hnonempty : chunk ≠ []) :
      Step job (.read stream count)
        { job.setLane stream
            { job.lane stream with
              unread := (job.lane stream).unread.drop (min count readSize)
              buffer := ((job.lane stream).buffer.feed chunk).2 } with
          queue := job.queue ++ ((job.lane stream).buffer.feed chunk).1.map (stream, ·) } []
  | readEnd (stream : Stream) (hreading : (job.lane stream).reading = true)
      (hread : (job.lane stream).unread = []) (hclosed : (job.lane stream).isOpen = false) :
      Step job (.readEnd stream)
        { job.setLane stream
            { job.lane stream with
              buffer := (job.lane stream).buffer.finish.2
              reading := false } with
          queue := job.queue ++
            ((job.lane stream).buffer.finish.1.map (stream, ·)).toList } []

variable {job next : Job} {action : Action} {told : List Callback}

/-- Steps of the executing call follow the rules. -/
theorem Step.of_executeStep? (h : job.executeStep? action = some (next, told)) :
    Step job action next told := by
  unfold executeStep? at h
  split at h
  case h_1 hpoint =>
    cases h
    exact .announce hpoint
  case h_2 pid hpoint =>
    cases h
    exact .spawn pid hpoint
  case h_3 cause hpoint =>
    cases h
    exact .spawnFails cause hpoint
  case h_4 pid hpoint =>
    cases h
    exact .recordPid pid hpoint
  case h_5 hpoint =>
    cases h
    exact .takePipes hpoint
  case h_6 stream hpoint =>
    cases h
    exact .pipeMissing stream hpoint
  case h_7 stream hpoint =>
    split at h
    · rename_i code hchild
      cases h
      exact .abandon stream code hpoint hchild
    · exact nomatch h
  case h_8 hpoint =>
    split at h
    · exact nomatch h
    · rename_i stream text queue hqueue
      cases h
      exact .dispatch stream text queue (hpoint ▸ .looping) hqueue
  case h_9 waited hpoint =>
    split at h
    · exact nomatch h
    · rename_i stream text queue hqueue
      cases h
      exact .dispatch stream text queue (hpoint ▸ .draining waited) hqueue
  case h_10 hpoint =>
    split at h
    · rename_i hpermit
      cases h
      exact .force (hpoint ▸ .looping) hpermit
    · exact nomatch h
  case h_11 waited hpoint =>
    split at h
    · rename_i hpermit
      cases h
      exact .force (hpoint ▸ .draining waited) hpermit
    · exact nomatch h
  case h_12 cause hpoint =>
    cases h
    exact .reapFails cause hpoint
  case h_13 hpoint =>
    split at h
    · rename_i code hchild
      cases h
      exact .reap code hpoint hchild
    · exact nomatch h
  case h_14 waited hpoint =>
    cases h
    exact .sweep waited hpoint
  case h_15 waited hpoint =>
    simp only [Bool.and_eq_true, List.isEmpty_iff, Bool.not_eq_true', Option.ite_none_right_eq_some,
      Option.some.injEq, Prod.mk.injEq] at h
    obtain ⟨⟨⟨hqueue, hout⟩, herr⟩, rfl, rfl⟩ := h
    exact .drain waited hpoint hqueue hout herr
  case h_16 waited hpoint =>
    cases h
    exact .giveUp waited hpoint
  case h_17 waited hpoint =>
    split at h
    · rename_i outcome control hsettle
      cases h
      exact .settle waited outcome control hpoint hsettle
    · rename_i cause control hsettle
      cases h
      exact .settleFails waited cause control hpoint hsettle
  case h_18 outcome hpoint =>
    cases h
    exact .reportExit outcome hpoint
  case h_19 => exact nomatch h

/-- Steps of calls that ask the job to end follow the rules. -/
theorem Step.of_killStep? (h : job.killStep? action = some next) : Step job action next [] := by
  cases action with
  | kill =>
      simp only [killStep?, Control.acceptKill?] at h
      by_cases hallowed : job.control.state = .running ∧ job.control.interrupted = false
      · rw [if_pos hallowed] at h
        cases h
        exact .kill hallowed.1 hallowed.2
      · rw [if_neg hallowed] at h
        cases h
        exact .killRefused hallowed
  | signal result =>
      simp only [killStep?] at h
      split at h
      · rename_i hkiller
        cases h
        exact .signalStored result none hkiller (.inl rfl)
      · rename_i pid hkiller
        split at h
        · exact nomatch h
        · rename_i hchild
          cases h
          exact .signalTooLate pid hkiller hchild
        · cases h
          exact .signalSent pid hkiller
        · rename_i cause
          cases h
          exact .signalStored _ (some pid) hkiller (.inr ⟨cause, rfl⟩)
      · exact nomatch h
  | graceOver =>
      simp only [killStep?, Option.ite_none_right_eq_some, Option.some.injEq] at h
      obtain ⟨⟨hkiller, hopen⟩, rfl⟩ := h
      exact .graceOver hkiller hopen
  | killReturns =>
      simp only [killStep?, Option.ite_none_right_eq_some, Option.some.injEq] at h
      obtain ⟨⟨hkiller, hclosed⟩, rfl⟩ := h
      exact .killReturns hkiller hclosed
  | _ => exact nomatch h

@[simp] theorem setLane_queue (job : Job) (stream : Stream) (lane : Lane) :
    (job.setLane stream lane).queue = job.queue := by
  cases stream <;> rfl

/-- Steps of the process and of the readers follow the rules. -/
theorem Step.of_outsideStep? (h : job.outsideStep? action = some next) :
    Step job action next [] := by
  cases action with
  | write stream bytes =>
      simp only [outsideStep?, Bool.and_eq_true, bne_iff_ne, Option.ite_none_right_eq_some,
        Option.some.injEq] at h
      obtain ⟨⟨hopen, hchild⟩, rfl⟩ := h
      exact .write stream bytes hopen hchild
  | close stream =>
      simp only [outsideStep?, Option.ite_none_left_eq_some, Option.some.injEq] at h
      obtain ⟨hchild, rfl⟩ := h
      exact .close stream hchild
  | childEnds code =>
      simp only [outsideStep?] at h
      split at h
      · rename_i pid hchild
        cases h
        exact .childEnds pid code hchild
      · exact nomatch h
  | read stream count =>
      simp only [outsideStep?, Bool.and_eq_true, Bool.not_eq_true', List.isEmpty_eq_false_iff,
        Option.ite_none_right_eq_some, Option.some.injEq, setLane_queue] at h
      obtain ⟨⟨hreading, hnonempty⟩, rfl⟩ := h
      exact .read stream count _ hreading rfl hnonempty
  | readEnd stream =>
      simp only [outsideStep?, Bool.and_eq_true, Bool.not_eq_true', List.isEmpty_iff,
        Option.ite_none_right_eq_some, Option.some.injEq, setLane_queue] at h
      obtain ⟨⟨⟨hreading, hread⟩, hclosed⟩, rfl⟩ := h
      exact .readEnd stream hreading hread hclosed
  | _ => exact nomatch h

/-- What a job does follows the rules. -/
theorem Step.of_step? (h : job.step? action = some (next, told)) : Step job action next told := by
  cases action with
  | execute =>
      simp only [step?, enter, Control.enter?] at h
      by_cases hidle : job.control.state = .idle
      · rw [if_pos hidle] at h
        cases h
        exact .execute hidle
      · rw [if_neg hidle] at h
        cases h
        exact .executeAgain hidle
  | kill | signal | graceOver | killReturns =>
      obtain ⟨other, hstep, heq⟩ := Option.map_eq_some_iff.1 h
      cases heq
      exact .of_killStep? hstep
  | write | close | childEnds | read | readEnd =>
      obtain ⟨other, hstep, heq⟩ := Option.map_eq_some_iff.1 h
      cases heq
      exact .of_outsideStep? hstep
  | _ => exact .of_executeStep? h

end Toolbench.Job
