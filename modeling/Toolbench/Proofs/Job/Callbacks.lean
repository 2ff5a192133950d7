import Toolbench.Proofs.Job.Completion
import Toolbench.Proofs.Job.LifeCycle

/-!
# What the observer of a job is told

The observer hears the start, then lines, then the outcome. The process may end, and its end may be
seen, while lines still wait in an output, with a reader or in the queue; `callbacks_in_order` says
that all of them are told before the outcome, in whatever order the parties take their turns.
`Heard` is the invariant behind it: what was told and what waits in the queue are the lines of the
bytes that were taken, and the drain ends only at the ends of both outputs.
-/

namespace Toolbench.Job

open Build (onStream onStream_append onStream_map eq_nil_of_onStream)

/-- How far a job has come for its observer. -/
inductive Stage where
  /-- Nothing was told. -/
  | silent
  /-- The start was told; nothing is read. -/
  | opened
  /-- The readers have begun, and lines are handed on. -/
  | serving
  /-- No more lines are handed on. -/
  | drained
deriving DecidableEq, Repr

/-- What is told before any line. -/
def Stage.opening : Stage → List Callback
  | .silent => []
  | .opened | .serving | .drained => [.started]

/-- The readers have begun. -/
def Stage.hasReaders : Stage → Bool
  | .silent | .opened => false
  | .serving | .drained => true

/-- When the readers have begun the start was told. -/
theorem Stage.opening_of_hasReaders {stage : Stage} (h : stage.hasReaders = true) :
    stage.opening = [.started] := by
  cases stage with
  | silent => exact nomatch h
  | opened | serving | drained => rfl

/-- How far the job has come for its observer when the executing call is at a point. -/
def Point.stage : Point → Stage
  | .idle | .entered => .silent
  | .announced | .spawned _ | .recorded | .abandoning _ => .opened
  | .looping | .reaped _ | .draining _ => .serving
  | .drained _ | .settled _ | .returned (.ok _) | .returned (.error (.wait _ _)) => .drained
  | .returned (.error _) => .opened

/-- Where lines are handed on the drain is not over, and no outcome was told. -/
theorem Point.Serving.stage_eq {point : Point} (h : point.Serving) : point.stage = .serving := by
  cases h with
  | looping | draining => rfl

/-- What is told of lines. -/
def linesTold (lines : List (Stream × String)) : List Callback :=
  lines.map fun line => .line line.1 line.2

/-- The observer was told this when the job had come so far. -/
structure Heard (actions : List Action) (told : List Callback) (job : Job) : Prop where
  inOrder : ∃ lines,
    told = job.point.stage.opening ++ linesTold lines ++ job.outcomes.map .exited ∧
      ∀ stream, (job.lane stream).Carries job.point.stage.hasReaders (written stream actions)
        (onStream stream (lines ++ job.queue))
  /-- The drain is over only when both readers have seen the end, unless it was given up. -/
  drained : Action.giveUp ∉ actions → job.point.stage = .drained →
    job.queue = [] ∧ ∀ stream, (job.lane stream).reading = false

variable {job next : Job} {action : Action} {actions : List Action} {told more : List Callback}

/-- While lines are handed on no outcome is decided. -/
theorem Point.Serving.outcomes_eq_nil (h : job.point.Serving) : job.outcomes = [] := by
  unfold Job.outcomes result?
  cases h' : job.point with
  | looping | draining => rfl
  | _ => rw [h'] at h; exact nomatch h

/-- The start is told before the call returns. -/
theorem result?_of_silent (h : job.point.stage = .silent) : job.result? = none := by
  cases hresult : job.result? with
  | none => rfl
  | some result =>
      rw [point_of_result? hresult] at h
      match result, h with
      | .ok _, h | .error (.wait _ _), h | .error (.spawn _ _), h | .error .alreadyStarted, h
      | .error (.missingPipe _), h => exact nomatch h

/-- Nothing is told of a job that is going to run a command. -/
theorem heard_ofCommand (command : Command) : Heard [] [] (ofCommand command) where
  inOrder := ⟨[], rfl, fun stream => by cases stream <;> exact Lane.carries_fresh⟩
  drained _ hstage := nomatch hstage

namespace Heard

/-- A step that has to do neither with the lines nor with the observer. -/
theorem still (h : Heard actions told job) (hstage : next.point.stage = job.point.stage)
    (houtcomes : next.outcomes = job.outcomes) (hqueue : next.queue = job.queue)
    (hlane : ∀ stream, next.lane stream = job.lane stream)
    (hbytes : ∀ stream, action.bytes stream = []) :
    Heard (actions ++ [action]) (told ++ []) next where
  inOrder := by
    obtain ⟨lines, htold, hlines⟩ := h.inOrder
    refine ⟨lines, ?_, fun stream => ?_⟩
    · rw [List.append_nil, htold, hstage, houtcomes]
    · rw [hlane, hstage, hqueue, written_concat, hbytes, List.append_nil]
      exact hlines stream
  drained hread hdrained := by
    rw [hqueue]
    simp only [hlane]
    exact h.drained (fun hmem => hread (List.mem_append_left _ hmem)) (hstage ▸ hdrained)

/-- Before the readers begin nothing was told but the start. -/
theorem of_not_hasReaders (h : Heard actions told job)
    (hbegun : job.point.stage.hasReaders = false) :
    told = job.point.stage.opening ++ job.outcomes.map .exited ∧ job.queue = [] ∧
      ∀ stream, (job.lane stream).Carries false (written stream actions) [] := by
  obtain ⟨lines, htold, hlines⟩ := h.inOrder
  rw [hbegun] at hlines
  have hnone : lines ++ job.queue = [] := eq_nil_of_onStream fun stream => (hlines stream).eq_nil
  obtain ⟨rfl, hqueue⟩ := List.append_eq_nil_iff.1 hnone
  refine ⟨?_, hqueue, fun stream => ?_⟩
  · rw [htold, linesTold, List.map_nil, List.append_nil]
  · rw [← (hlines stream).eq_nil]
    exact hlines stream

/-- The call goes on while nothing is read yet: what it tells opens the stage that it comes to. -/
theorem ofOpening (h : Heard actions told job) (hbegun : job.point.stage.hasReaders = false)
    (hmore : job.point.stage.opening ++ job.outcomes.map .exited ++ more
      = next.point.stage.opening ++ next.outcomes.map .exited)
    (hqueue : next.queue = job.queue)
    (hlane : ∀ stream bytes, (job.lane stream).Carries false bytes [] →
      (next.lane stream).Carries next.point.stage.hasReaders bytes [])
    (hbytes : ∀ stream, action.bytes stream = []) (hopen : next.point.stage ≠ .drained) :
    Heard (actions ++ [action]) (told ++ more) next where
  inOrder := by
    obtain ⟨htold, hnone, hlines⟩ := h.of_not_hasReaders hbegun
    refine ⟨[], ?_, fun stream => ?_⟩
    · rw [htold, hmore, linesTold, List.map_nil, List.append_nil]
    · rw [written_concat, hbytes, List.append_nil, hqueue, hnone]
      exact hlane stream _ (hlines stream)
  drained _ hstage := absurd hstage hopen

/-- Something happens to one output, and lines of it may come into the queue. -/
theorem ofLane (h : Heard actions told job) {stream : Stream} {lane : Lane} {added : List String}
    (hlane : ∀ other, next.lane other = if stream = other then lane else job.lane other)
    (hqueue : next.queue = job.queue ++ added.map (stream, ·)) (hpoint : next.point = job.point)
    (hbytes : ∀ other, stream ≠ other → action.bytes other = [])
    (hcarries : ∀ begun bytes lines, (job.lane stream).Carries begun bytes lines →
      lane.Carries begun (bytes ++ action.bytes stream) (lines ++ added))
    (hended : (job.lane stream).reading = false → lane.reading = false ∧ added = []) :
    Heard (actions ++ [action]) (told ++ []) next where
  inOrder := by
    obtain ⟨lines, htold, hlines⟩ := h.inOrder
    refine ⟨lines, ?_, fun other => ?_⟩
    · rw [List.append_nil, htold, Job.outcomes, Job.outcomes, result?, result?, hpoint]
    · rw [hlane, hpoint, hqueue, written_concat, ← List.append_assoc, onStream_append, onStream_map]
      by_cases hsame : stream = other
      · subst hsame
        rw [if_pos rfl, if_pos rfl]
        exact hcarries _ _ _ (hlines stream)
      · rw [if_neg hsame, if_neg hsame, hbytes other hsame, List.append_nil, List.append_nil]
        exact hlines other
  drained hread hstage := by
    obtain ⟨hempty, hreading⟩ :=
      h.drained (fun hmem => hread (List.mem_append_left _ hmem)) (hpoint ▸ hstage)
    obtain ⟨hlast, rfl⟩ := hended (hreading stream)
    refine ⟨by rw [hqueue, hempty]; rfl, fun other => ?_⟩
    rw [hlane]
    split
    · exact hlast
    · exact hreading other

/-- The call takes a step on its own: it may hand on lines from the queue, and it may end. -/
theorem ofCall (h : Heard actions told job) (handed : List (Stream × String))
    (hmore : more = linesTold handed ++ next.outcomes.map .exited)
    (hbegun : job.point.stage.hasReaders = true) (hopen : job.outcomes = [])
    (hstage : next.point.stage.hasReaders = true)
    (hqueue : job.queue = handed ++ next.queue)
    (hlane : ∀ stream, next.lane stream = job.lane stream)
    (hbytes : ∀ stream, action.bytes stream = [])
    (hdrained : Action.giveUp ∉ actions ++ [action] → next.point.stage = .drained →
      next.queue = [] ∧ ∀ stream, (job.lane stream).reading = false) :
    Heard (actions ++ [action]) (told ++ more) next where
  inOrder := by
    obtain ⟨lines, htold, hlines⟩ := h.inOrder
    refine ⟨lines ++ handed, ?_, fun stream => ?_⟩
    · rw [htold, hmore, hopen, Stage.opening_of_hasReaders hbegun,
        Stage.opening_of_hasReaders hstage]
      simp [linesTold]
    · rw [hlane, hstage, written_concat, hbytes, List.append_nil, List.append_assoc, ← hqueue,
        ← hbegun]
      exact hlines stream
  drained hread hover := by
    simpa only [hlane] using hdrained hread hover

end Heard

/-- Every step tells the observer what comes next. -/
theorem Step.heard (hstep : Step job action next more) (hjob : job.Coherent)
    (h : Heard actions told job) : Heard (actions ++ [action]) (told ++ more) next := by
  have houtcomes := hstep.outcomes hjob
  cases hstep with
  | execute hidle =>
      have hpoint : job.point = .idle := Point.Fits.eq_idle hjob hidle
      exact h.still (by rw [hpoint]; rfl) (by simpa using houtcomes) rfl (fun _ => rfl) fun _ => rfl
  | spawn _ hpoint | spawnFails _ hpoint | recordPid _ hpoint | pipeMissing _ hpoint
  | abandon _ _ hpoint | reap _ hpoint | reapFails _ hpoint | sweep _ hpoint
  | settle _ _ _ hpoint | settleFails _ _ _ hpoint =>
      exact h.still (by rw [hpoint]; rfl) (by simpa using houtcomes) rfl (fun _ => rfl) fun _ => rfl
  | executeAgain | force | kill | killRefused | signalStored | signalSent | signalTooLate
  | graceOver | killReturns | childEnds =>
      exact h.still rfl rfl rfl (fun _ => rfl) fun _ => rfl
  | announce hpoint =>
      refine h.ofOpening (by rw [hpoint]; rfl) ?_ rfl (fun _ _ hcarries => hcarries)
        (fun _ => rfl) (by simp [Point.stage])
      rw [hpoint, houtcomes]
      simp [Job.outcomes, result?, hpoint, Callback.exit?, Point.stage, Stage.opening]
  | takePipes hpoint =>
      refine h.ofOpening (by rw [hpoint]; rfl) ?_ rfl (fun stream _ hcarries => ?_)
        (fun _ => rfl) (by simp [Point.stage])
      · rw [hpoint, houtcomes]
        simp [Point.stage, Stage.opening]
      · cases stream with
        | out | err => exact hcarries.begin
  | dispatch stream text queue hserving hqueue =>
      have hstage := hserving.stage_eq
      have hnone := hserving.outcomes_eq_nil
      refine h.ofCall [(stream, text)] ?_ (by rw [hstage]; rfl) hnone
        (by rw [hstage]; rfl) hqueue (fun _ => rfl) (fun _ => rfl) fun _ hover =>
          by cases hstage.symm.trans hover
      rw [houtcomes, hnone]
      rfl
  | drain waited hpoint hqueue hout herr =>
      refine h.ofCall [] rfl (by rw [hpoint]; rfl) ?_ rfl rfl (fun _ => rfl)
        (fun _ => rfl) fun _ _ => ⟨hqueue, fun stream => by cases stream <;> assumption⟩
      rw [Job.outcomes, result?, hpoint]
      rfl
  | giveUp waited hpoint =>
      refine h.ofCall [] rfl (by rw [hpoint]; rfl) ?_ rfl rfl (fun _ => rfl)
        (fun _ => rfl) fun hread => absurd (List.mem_append_right _ List.mem_cons_self) hread
      rw [Job.outcomes, result?, hpoint]
      rfl
  | reportExit outcome hpoint =>
      refine h.ofCall [] rfl (by rw [hpoint]; rfl) ?_ rfl rfl (fun _ => rfl)
        (fun _ => rfl) fun hread _ => h.drained (fun hmem => hread (List.mem_append_left _ hmem))
          (by rw [hpoint]; rfl)
      rw [Job.outcomes, result?, hpoint]
      rfl
  | write stream bytes hopen =>
      exact h.ofLane (lane_setLane job stream · _) (by simp) (setLane_point job stream _)
        (fun other hother => if_neg hother)
        (fun _ _ _ hcarries => by
          simpa [Action.bytes] using hcarries.write hopen bytes)
        fun hreading => ⟨hreading, rfl⟩
  | close stream =>
      exact h.ofLane (lane_setLane job stream · _) (by simp) (setLane_point job stream _)
        (fun _ _ => rfl)
        (fun _ _ _ hcarries => by
          simpa [Action.bytes] using hcarries.close)
        fun hreading => ⟨hreading, rfl⟩
  | read stream count chunk hreading hchunk =>
      subst hchunk
      exact h.ofLane (lane_setLane job stream · _) rfl (setLane_point job stream _)
        (fun _ _ => rfl)
        (fun _ _ _ hcarries => by
          simpa [Action.bytes] using hcarries.read hreading _)
        fun hended => by cases hreading.symm.trans hended
  | readEnd stream hreading hread hclosed =>
      exact h.ofLane (lane_setLane job stream · _) (by rw [Option.toList_map])
        (setLane_point job stream _) (fun _ _ => rfl)
        (fun _ _ _ hcarries => by
          simpa [Action.bytes] using hcarries.readEnd hreading hread hclosed)
        fun hended => by cases hreading.symm.trans hended

/-- The call could not wait for the process. -/
def Point.hasMissed : Point → Bool
  | .reaped (.error _) | .draining (.error _) | .drained (.error _)
  | .returned (.error (.wait _ _)) => true
  | _ => false

namespace Step

/-- The call misses the end of the process only when the wait fails. -/
theorem reap_of_hasMissed (h : Step job action next more)
    (hmark : next.point.hasMissed = true) :
    job.point.hasMissed = true ∨ ∃ cause, action = .reap (some cause) := by
  cases h with
  | reapFails cause => exact .inr ⟨cause, rfl⟩
  | execute | announce | spawn | spawnFails | recordPid | takePipes | pipeMissing | abandon | reap
  | settle | reportExit => exact nomatch hmark
  | sweep waited hpoint | drain waited hpoint | giveUp waited hpoint =>
      cases waited with
      | ok code => exact nomatch hmark
      | error cause => exact .inl (by rw [hpoint]; rfl)
  | settleFails waited cause control hpoint hsettle =>
      cases waited with
      | ok code =>
          obtain ⟨outcome, houtcome⟩ := job.control.settle_ok_eq_ok code
          rw [hsettle] at houtcome
          exact nomatch houtcome
      | error cause => exact .inl (by rw [hpoint]; rfl)
  | write | close | read | readEnd => exact .inl (by simpa using hmark)
  | _ => exact .inl hmark

/-- A job runs the command that it was made for. -/
theorem command_eq (h : Step job action next more) : next.command = job.command := by
  cases h with
  | write stream | close stream | read stream | readEnd stream => cases stream <;> rfl
  | _ => rfl

/-- While there is no process there was none, and nothing is written. -/
theorem absent_of_absent (h : Step job action next more) (hnext : next.child = .absent) :
    job.child = .absent ∧ ∀ stream, action.bytes stream = [] := by
  cases h with
  | spawn | childEnds => exact nomatch hnext
  | write _ _ _ hchild => exact absurd (by simpa using hnext) hchild
  | close | read | readEnd => exact ⟨by simpa using hnext, fun _ => rfl⟩
  | _ => exact ⟨hnext, fun _ => rfl⟩

/-- When the spawn fails there is no process, and there will be none. -/
theorem absent_of_spawn_failed (h : Step job action next more) (hjob : job.Coherent)
    (hkept : ∀ program cause, job.point = .returned (.error (.spawn program cause)) →
      job.child = .absent) {program : String} {cause : SystemError}
    (hpoint : next.point = .returned (.error (.spawn program cause))) : next.child = .absent := by
  cases h with
  | spawnFails _ hannounced => exact (hjob.fits_at hannounced).2
  | childEnds _ _ hchild => exact nomatch hchild.symm.trans (hkept program cause hpoint)
  | write | close | read | readEnd => simpa using hkept program cause (by simpa using hpoint)
  | execute | announce | spawn | recordPid | takePipes | pipeMissing | abandon | reap | reapFails
  | sweep | drain | giveUp | settle | settleFails | reportExit => exact nomatch hpoint
  | _ => exact hkept program cause hpoint

/-- When there is no process the call returns at once, and nothing that happens later changes
that. -/
theorem spawn_failed (h : Step job action next more) (hjob : job.Coherent) {cause : SystemError}
    (hmark : job.point = .returned (.error (.spawn job.command.program cause)) ∨
      action = .spawn (.error cause)) :
    next.point = .returned (.error (.spawn job.command.program cause)) := by
  cases h with
  | spawnFails other hpoint =>
      rcases hmark with hreturned | haction
      · exact nomatch hpoint.symm.trans hreturned
      · cases haction
        rfl
  | execute hidle =>
      have hpoint : job.point = .idle := Point.Fits.eq_idle hjob hidle
      exact nomatch hpoint.symm.trans (hmark.resolve_right nofun)
  | announce hpoint | recordPid _ hpoint | takePipes hpoint | pipeMissing _ hpoint
  | abandon _ _ hpoint | reap _ hpoint | reapFails _ hpoint | sweep _ hpoint | drain _ hpoint
  | giveUp _ hpoint | settle _ _ _ hpoint | settleFails _ _ _ hpoint | reportExit _ hpoint =>
      exact nomatch hpoint.symm.trans (hmark.resolve_right nofun)
  | spawn _ hpoint =>
      rcases hmark with hreturned | haction
      · exact nomatch hpoint.symm.trans hreturned
      · exact nomatch haction
  | write | close | read | readEnd => simpa using hmark.resolve_right nofun
  | _ => exact hmark.resolve_right nofun

end Step

section Histories

variable {command : Command} (hrun : (ofCommand command).run? actions = some (job, told))
include hrun

/-- The observer was told what comes up to now. -/
theorem heard_run : Heard actions told job := by
  have hinvariant := Machine.run?_history_invariant step?
    (P := fun past said job => job.Coherent ∧ Heard past said job)
    (fun past said job action next told hpast h => ?_) hrun
    ⟨coherent_ofCommand command, heard_ofCommand command⟩
  · exact hinvariant.2
  · have hstep := Step.of_step? h
    exact ⟨hstep.coherent hpast.1, hstep.heard hpast.1 hpast.2⟩

/-- When there is no process the call says why. -/
theorem point_of_spawn_failed {cause : SystemError}
    (hspawn : Action.spawn (.error cause) ∈ actions) :
    job.point = .returned (.error (.spawn command.program cause)) := by
  refine Machine.run?_mark step?
    (P := fun job => job.Coherent ∧ job.command = command)
    (Q := fun job => job.point = .returned (.error (.spawn command.program cause)))
    (M := fun action => action = .spawn (.error cause))
    (fun job action next told hjob h => ?_) (fun job action next told hjob h hmark => ?_) hrun
    ⟨coherent_ofCommand command, rfl⟩ (.inr ⟨_, hspawn, rfl⟩)
  · have hstep := Step.of_step? h
    exact ⟨hstep.coherent hjob.1, hstep.command_eq.trans hjob.2⟩
  · obtain ⟨hcoherent, rfl⟩ := hjob
    exact (Step.of_step? h).spawn_failed hcoherent hmark

/-- When the spawn failed nothing was written. -/
theorem written_of_spawn_failed {program : String} {cause : SystemError}
    (hpoint : job.point = .returned (.error (.spawn program cause))) (stream : Stream) :
    written stream actions = [] := by
  have hinvariant := Machine.run?_history_invariant step?
    (P := fun past _ job => job.Coherent ∧
      (job.child = .absent → ∀ stream, written stream past = []) ∧
      ∀ program cause, job.point = .returned (.error (.spawn program cause)) → job.child = .absent)
    (fun past said job action next told hpast h => ?_) hrun
    ⟨coherent_ofCommand command, fun _ _ => rfl, fun _ _ hreturned => nomatch hreturned⟩
  · exact hinvariant.2.1 (hinvariant.2.2 program cause hpoint) stream
  · obtain ⟨hjob, hnone, hkept⟩ := hpast
    have hstep := Step.of_step? h
    refine ⟨hstep.coherent hjob, fun habsent stream => ?_,
      fun _ _ => hstep.absent_of_spawn_failed hjob hkept⟩
    obtain ⟨hbefore, hbytes⟩ := hstep.absent_of_absent habsent
    rw [written_concat, hnone hbefore, hbytes, List.append_nil]

/-- When the spawn fails the observer is told the start alone. -/
theorem told_of_spawn_failed {program : String} {cause : SystemError}
    (hresult : job.result? = some (.error (.spawn program cause))) : told = [.started] := by
  have hpoint := point_of_result? hresult
  obtain ⟨honly, -⟩ := (heard_run hrun).of_not_hasReaders (by rw [hpoint]; rfl)
  rw [honly, hpoint, outcomes, hresult]
  rfl

/-- When the call has returned, the observer was told all lines of both outputs, unless the drain
was given up or an output was missing. -/
theorem told_of_result? {result : Except Failure Outcome} (hresult : job.result? = some result)
    (hread : Action.giveUp ∉ actions) (hpipes : ∀ stream, result ≠ .error (.missingPipe stream)) :
    ∃ lines, told = .started :: linesTold lines ++ job.outcomes.map .exited ∧
      ∀ stream, onStream stream lines = LineBuffer.linesOf (written stream actions) := by
  have hheard := heard_run hrun
  have hpoint := point_of_result? hresult
  -- The outputs were drained to their ends.
  have hcomplete : job.point.stage = .drained →
      ∃ lines, told = .started :: linesTold lines ++ job.outcomes.map .exited ∧
        ∀ stream, onStream stream lines = LineBuffer.linesOf (written stream actions) := by
    intro hstage
    obtain ⟨lines, htold, hlines⟩ := hheard.inOrder
    obtain ⟨hempty, hreading⟩ := hheard.drained hread hstage
    refine ⟨lines, by rw [htold, hstage]; rfl, fun stream => ?_⟩
    have hcarries := hlines stream
    rw [hempty, List.append_nil, hstage] at hcarries
    exact hcarries.eq_linesOf (hreading stream)
  match result with
  | .ok _ | .error (.wait _ _) => exact hcomplete (by rw [hpoint]; rfl)
  | .error .alreadyStarted => exact absurd rfl ((coherent_run hrun).fits_at hpoint).ran
  | .error (.missingPipe stream) => exact absurd rfl (hpipes stream)
  | .error (.spawn _ _) =>
      refine ⟨[], by rw [told_of_spawn_failed hrun hresult, outcomes, hresult]; rfl,
        fun stream => ?_⟩
      rw [written_of_spawn_failed hrun hpoint stream]
      rfl

/-- At any time the observer was told the start, then lines, then the outcome that the call
returned. -/
theorem told_inOrder : told = [] ∧ job.result? = none ∨
    ∃ lines, told = .started :: linesTold lines ++ job.outcomes.map .exited ∧
      ∀ stream, onStream stream lines <+: LineBuffer.linesOf (written stream actions) := by
  have hheard := heard_run hrun
  cases hstage : job.point.stage with
  | silent =>
      have hopen := result?_of_silent hstage
      obtain ⟨honly, -⟩ := hheard.of_not_hasReaders (by rw [hstage]; rfl)
      refine .inl ⟨?_, hopen⟩
      rw [honly, hstage, outcomes, hopen]
      rfl
  | opened | serving | drained =>
      obtain ⟨lines, htold, hlines⟩ := hheard.inOrder
      refine .inr ⟨lines, by rw [htold, hstage]; rfl, fun stream => ?_⟩
      have hprefix := (hlines stream).prefix_linesOf
      rw [onStream_append] at hprefix
      exact (List.prefix_append _ _).trans hprefix

/-- The call returns an outcome when the command could be run and its process waited for. -/
theorem exists_outcome {result : Except Failure Outcome} (hresult : job.result? = some result)
    (hran : actions.any Action.isObstacle = false)
    (hwaited : ∀ cause, Action.reap (some cause) ∉ actions) : ∃ outcome, result = .ok outcome := by
  have hmissed := Machine.run?_history_invariant step?
    (P := fun past _ job => job.Coherent ∧
      (job.point.hasMissed = true → ∃ cause, Action.reap (some cause) ∈ past))
    (fun past said job action next told hpast h => ?_) hrun
    ⟨coherent_ofCommand command, fun hmark => nomatch hmark⟩
  · have hobstructed := (isObstructed_run hrun).trans hran
    have hpoint := point_of_result? hresult
    match result with
    | .ok outcome => exact ⟨outcome, rfl⟩
    | .error (.spawn _ _) | .error (.missingPipe _) =>
        rw [hpoint] at hobstructed
        exact nomatch hobstructed
    | .error .alreadyStarted => exact absurd rfl ((coherent_run hrun).fits_at hpoint).ran
    | .error (.wait _ _) =>
        obtain ⟨cause, hcause⟩ := hmissed.2 (by rw [hpoint]; rfl)
        exact absurd hcause (hwaited cause)
  · have hstep := Step.of_step? h
    refine ⟨hstep.coherent hpast.1, fun hmark => ?_⟩
    rcases hstep.reap_of_hasMissed hmark with hold | ⟨cause, rfl⟩
    · obtain ⟨cause, hcause⟩ := hpast.2 hold
      exact ⟨cause, List.mem_append_left _ hcause⟩
    · exact ⟨cause, List.mem_append_right _ List.mem_cons_self⟩

end Histories

/-- What is promised to the observer of a job, after a history that began when the job was made. -/
structure Observed (command : Command) (actions : List Action) (job : Job)
    (told : List Callback) : Prop where
  /-- At any time it was told the start and then lines, each output's from the first one on, and
  the outcome only when the call returned one. -/
  inOrder : told = [] ∧ job.result? = none ∨
    ∃ lines, told = .started :: linesTold lines ++ job.outcomes.map .exited ∧
      ∀ stream, onStream stream lines <+: LineBuffer.linesOf (written stream actions)
  /-- When the call returns an outcome, and the drain was not given up, it was told all lines of
  both outputs, and the outcome last. -/
  complete : Action.giveUp ∉ actions → ∀ outcome, job.result? = some (.ok outcome) →
    ∃ lines, told = .started :: linesTold lines ++ [.exited outcome] ∧
      ∀ stream, onStream stream lines = LineBuffer.linesOf (written stream actions)
  /-- When there is no process it is told the start alone. -/
  spawnFailed : ∀ cause, Action.spawn (.error cause) ∈ actions →
    job.result? = some (.error (.spawn command.program cause)) ∧ told = [.started]
  /-- The call returns an outcome when the command could be run and its process waited for. -/
  outcome : ∀ result, job.result? = some result → actions.any Action.isObstacle = false →
    (∀ cause, Action.reap (some cause) ∉ actions) → ∃ outcome, result = .ok outcome
  /-- When the command is over, the call and the readers come to the end in every order: they can
  go on until the call has returned, and not for ever. -/
  ends : job.IsOver → ∀ own next later, (∀ action ∈ own, action.isOwn = true) →
    job.run? own = some (next, later) → own.length ≤ job.ahead ∧
      (next.result? = none → ∃ action, action.isOwn = true ∧ (next.step? action).isSome = true)

/-- However the outputs are written and cut, and in whatever order the readers, the process and
the calls take their turns, the observer is told what `Observed` says. -/
theorem callbacks_in_order {command : Command}
    (hrun : (ofCommand command).run? actions = some (job, told)) :
    Observed command actions job told := by
  constructor
  case inOrder => exact told_inOrder hrun
  case complete =>
    intro hread outcome hresult
    have htold := told_of_result? hrun hresult hread nofun
    rwa [outcomes, hresult] at htold
  case spawnFailed =>
    intro cause hspawn
    have hresult : job.result? = some (.error (.spawn command.program cause)) := by
      rw [result?, point_of_spawn_failed hrun hspawn]
    exact ⟨hresult, told_of_spawn_failed hrun hresult⟩
  case outcome =>
    intro result hresult hran hwaited
    exact exists_outcome hrun hresult hran hwaited
  case ends =>
    intro hover own next later hown hmore
    exact own_steps_complete (coherent_run hrun) hover hown hmore

/-- The end of the process is seen before anything is read, and a line without an end is told
too. -/
theorem callbacks_in_order_late_lines :
    let actions : List Action :=
      [.execute, .announce, .spawn (.ok 7), .recordPid, .takePipes none, .write .out [97, 10, 98],
        .write .err [99, 13, 10], .childEnds (some 0), .reap none, .sweep, .close .out,
        .close .err, .read .out 1, .read .err 8, .dispatch, .read .out 8, .readEnd .out, .dispatch,
        .readEnd .err, .dispatch, .drain, .settle, .reportExit]
    ∃ job told, (ofCommand (.ofProgram "cargo")).run? actions = some (job, told) ∧
      told = [.started, .line .err "c", .line .out "a", .line .out "b",
        .exited (.completed (some 0))] ∧
      Observed (.ofProgram "cargo") actions job told := by
  intro actions
  have hobserved := callbacks_in_order
    (rfl : (ofCommand (.ofProgram "cargo")).run? actions = some (_, _))
  exact ⟨_, _, rfl, by decide +kernel, hobserved⟩

end Toolbench.Job
