import Toolbench.Proofs.Job.Coherence
import Toolbench.Proofs.Job.Outputs
import Toolbench.Proofs.Trace

/-!
# A job comes to its end

When the command has ended and nobody can write any more, the executing call and the readers bring
the job to its end in whatever order they take their turns. `Action.isOwn` says what they do by
themselves. Each such step leaves less to do (`Step.ahead_lt`), and one is possible until the call
has returned (`exists_step_of_isOver`), so no schedule of them goes on for ever or gets stuck.
-/

namespace Toolbench

/-- A list has at most one separator for each of its elements. -/
theorem Text.length_splitOn_le {α : Type} [DecidableEq α] (a : α) (xs : List α) :
    (xs.splitOn a).length ≤ xs.length + 1 := by
  induction xs with
  | nil => simp
  | cons x xs ih =>
      rw [List.splitOn_cons_eq_if_modifyHead]
      split
      · simpa using ih
      · rw [List.length_modifyHead, List.length_cons]
        omega

/-- A chunk completes at most one line for each of its bytes. -/
theorem LineBuffer.length_feed_le (buffer : LineBuffer) (chunk : List UInt8) :
    (buffer.feed chunk).1.length ≤ chunk.length := by
  have hpieces := Text.length_splitOn_le feedByte chunk
  simp only [feed, List.length_map, List.length_dropLast, List.length_modifyHead]
  omega

namespace Job

/-- What the executing call and the readers do by themselves, when the outputs are there and the
process can be waited for. -/
def Action.isOwn : Action → Bool
  | .recordPid | .takePipes none | .abandon | .dispatch | .reap none | .sweep | .drain | .settle
  | .reportExit | .read _ _ | .readEnd _ => true
  | _ => false

/-- How much the executing call still has to do. To begin to read makes work for two readers. -/
def Point.ahead : Point → Nat
  | .idle | .entered | .announced => 12
  | .spawned _ => 11
  | .recorded => 10
  | .looping => 5
  | .reaped _ => 4
  | .draining _ => 3
  | .drained _ => 2
  | .abandoning _ | .settled _ => 1
  | .returned _ => 0

/-- How much the reader of an output still has to do. Each byte, and the end, may give a line. -/
def Lane.ahead (lane : Lane) : Nat :=
  2 * (lane.unread.length + lane.reading.toNat)

/-- How much the executing call and the readers still have to do. -/
def ahead (job : Job) : Nat :=
  job.point.ahead + (job.out.ahead + job.err.ahead) + job.queue.length

/-- The command has ended, and nobody can write any more. -/
structure IsOver (job : Job) : Prop where
  ended : ∃ code, job.child = .ended code
  closed : ∀ stream, (job.lane stream).isOpen = false

variable {job next : Job} {action : Action} {actions : List Action} {told : List Callback}

/-- What one reader has done there is less to do. -/
theorem ahead_setLane (job : Job) (stream : Stream) (lane : Lane) :
    (job.setLane stream lane).out.ahead + (job.setLane stream lane).err.ahead
        + (job.lane stream).ahead
      = job.out.ahead + job.err.ahead + lane.ahead := by
  cases stream
  · show lane.ahead + job.err.ahead + job.out.ahead = _
    omega
  · show job.out.ahead + lane.ahead + job.err.ahead = _
    omega

/-- Every own step leaves less to do. -/
theorem Step.ahead_lt (h : Step job action next told) (hown : action.isOwn = true) :
    next.ahead < job.ahead := by
  unfold ahead
  cases h with
  | recordPid _ hpoint | abandon _ _ hpoint | reap _ hpoint | sweep _ hpoint | drain _ hpoint
  | settle _ _ _ hpoint | settleFails _ _ _ hpoint | reportExit _ hpoint =>
      rw [hpoint]
      simp only [Point.ahead]
      omega
  | takePipes hpoint =>
      rw [hpoint]
      have hout := Bool.toNat_le job.out.reading
      simp only [Point.ahead, Lane.ahead, Bool.toNat_true]
      omega
  | dispatch stream text queue _ hqueue =>
      show job.point.ahead + (job.out.ahead + job.err.ahead) + queue.length < _
      rw [hqueue, List.length_cons]
      omega
  | read stream count chunk hreading hchunk hnonempty =>
      have hlanes := job.ahead_setLane stream
        { job.lane stream with
          unread := (job.lane stream).unread.drop (min count readSize)
          buffer := ((job.lane stream).buffer.feed chunk).2 }
      have hlines := LineBuffer.length_feed_le (job.lane stream).buffer chunk
      have htaken : chunk.length
          + ((job.lane stream).unread.drop (min count readSize)).length
            = (job.lane stream).unread.length := by
        rw [hchunk, ← List.length_append, List.take_append_drop]
      have hsome := List.length_pos_iff.2 hnonempty
      simp only [Lane.ahead, setLane_point, List.length_append, List.length_map] at hlanes ⊢
      omega
  | readEnd stream hreading hread hclosed =>
      have hlanes := job.ahead_setLane stream
        { job.lane stream with
          buffer := (job.lane stream).buffer.finish.2
          reading := false }
      have htail := Option.length_toList_le (o := (job.lane stream).buffer.finish.1)
      simp only [Lane.ahead, setLane_point, List.length_append, Option.toList_map, List.length_map,
        hreading, Bool.toNat_true, Bool.toNat_false] at hlanes ⊢
      omega
  | _ => exact nomatch hown

/-- A reader that has not seen the end takes a step when nobody can write any more. -/
theorem exists_step_of_reading (stream : Stream) (hreading : (job.lane stream).reading = true)
    (hclosed : (job.lane stream).isOpen = false) :
    ∃ action, action.isOwn = true ∧ (job.step? action).isSome = true := by
  by_cases hread : (job.lane stream).unread = []
  · exact ⟨.readEnd stream, rfl, by simp [step?, outsideStep?, hreading, hread, hclosed]⟩
  · exact ⟨.read stream readSize, rfl, by simp [step?, outsideStep?, hreading, hread, readSize]⟩

/-- In the drain an own step is possible: a reader goes on, a line is handed on, or the drain is
over. -/
theorem exists_step_of_draining {waited : Waited}
    (hclosed : ∀ stream, (job.lane stream).isOpen = false) (hpoint : job.point = .draining waited) :
    ∃ action, action.isOwn = true ∧ (job.step? action).isSome = true := by
  cases hout : job.out.reading with
  | true => exact exists_step_of_reading .out hout (hclosed .out)
  | false =>
      cases herr : job.err.reading with
      | true => exact exists_step_of_reading .err herr (hclosed .err)
      | false =>
          cases hqueue : job.queue with
          | nil =>
              exact ⟨.drain, rfl, by simp [step?, executeStep?, hpoint, hqueue, hout, herr]⟩
          | cons line queue =>
              exact ⟨.dispatch, rfl, by simp [step?, executeStep?, hpoint, hqueue]⟩

/-- Until the call has returned, an own step is possible. -/
theorem exists_step_of_isOver (hjob : job.Coherent) (hover : job.IsOver)
    (hopen : job.result? = none) :
    ∃ action, action.isOwn = true ∧ (job.step? action).isSome = true := by
  obtain ⟨code, hchild⟩ := hover.ended
  cases hpoint : job.point with
  | idle | entered | announced =>
      -- There is no process yet, so none has ended.
      cases hchild.symm.trans (hjob.fits_at hpoint).2
  | spawned pid => exact ⟨.recordPid, rfl, by simp [step?, executeStep?, hpoint]⟩
  | recorded => exact ⟨.takePipes none, rfl, by simp [step?, executeStep?, hpoint]⟩
  | abandoning stream =>
      exact ⟨.abandon, rfl, by simp [step?, executeStep?, hpoint, hchild]⟩
  | looping => exact ⟨.reap none, rfl, by simp [step?, executeStep?, hpoint, hchild]⟩
  | reaped waited => exact ⟨.sweep, rfl, by simp [step?, executeStep?, hpoint]⟩
  | draining waited => exact exists_step_of_draining hover.closed hpoint
  | drained waited =>
      rcases hsettle : job.control.settle waited with ⟨outcome | cause, control⟩
      · exact ⟨.settle, rfl, by simp [step?, executeStep?, hpoint, hsettle]⟩
      · exact ⟨.settle, rfl, by simp [step?, executeStep?, hpoint, hsettle]⟩
  | settled outcome => exact ⟨.reportExit, rfl, by simp [step?, executeStep?, hpoint]⟩
  | returned result =>
      cases (result?_of_point hpoint).symm.trans hopen

/-- What the call and the readers do brings back neither the process nor anybody who writes. -/
theorem Step.isOver (h : Step job action next told) (hown : action.isOwn = true)
    (hover : job.IsOver) : next.IsOver := by
  obtain ⟨hended, hclosed⟩ := hover
  cases h with
  | recordPid | abandon | dispatch | reap | sweep | drain | settle | settleFails | reportExit =>
      exact ⟨hended, hclosed⟩
  | takePipes =>
      exact ⟨hended, fun stream => by cases stream with
        | out => exact hclosed .out
        | err => exact hclosed .err⟩
  | read stream | readEnd stream =>
      refine ⟨by simpa using hended, fun other => ?_⟩
      show ((job.setLane stream _).lane other).isOpen = false
      rw [lane_setLane]
      split
      · exact hclosed stream
      · exact hclosed other
  | _ => exact nomatch hown

/-- However the call and the readers take turns, they take no more steps than there is to do, and
one more is possible until the call has returned. -/
theorem own_steps_complete (hjob : job.Coherent) (hover : job.IsOver)
    (hown : ∀ action ∈ actions, action.isOwn = true)
    (hrun : job.run? actions = some (next, told)) :
    actions.length ≤ job.ahead ∧ (next.result? = none →
      ∃ action, action.isOwn = true ∧ (next.step? action).isSome = true) := by
  induction actions generalizing job told with
  | nil =>
      cases hrun
      exact ⟨Nat.zero_le _, exists_step_of_isOver hjob hover⟩
  | cons action actions ih =>
      obtain ⟨middle, first, later, hfirst, hlater, -⟩ := (Machine.run?_cons_eq_some step?).1 hrun
      obtain ⟨hnow, hrest⟩ := List.forall_mem_cons.1 hown
      have hstep := Step.of_step? hfirst
      obtain ⟨hbound, hprogress⟩ :=
        ih (hstep.coherent hjob) (hstep.isOver hnow hover) hrest hlater
      have hless := hstep.ahead_lt hnow
      refine ⟨?_, hprogress⟩
      rw [List.length_cons]
      omega

end Job

end Toolbench
