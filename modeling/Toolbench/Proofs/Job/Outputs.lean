import Mathlib.Data.List.Basic
import Toolbench.Proofs.Job.Step
import Toolbench.Proofs.Stream.Chunks

/-!
# From the bytes of an output to its lines

What a command writes to an output waits to be read, is cut into lines, waits in the queue, and is
told. `Lane.Carries` says that nothing is lost on this way: the lines that were told or wait in the
queue are those that are complete in the bytes that were taken, and after the end they are the
lines of all that was written. One lemma for each thing that can happen to an output keeps it.
-/

namespace Toolbench

namespace Build

open Job (Stream)

/-- What belongs to one output, in order. -/
def onStream {α : Type} (stream : Stream) (items : List (Stream × α)) : List α :=
  items.filterMap fun item => if item.1 = stream then some item.2 else none

@[simp] theorem onStream_nil {α : Type} (stream : Stream) :
    onStream stream ([] : List (Stream × α)) = [] := rfl

@[simp] theorem onStream_append {α : Type} (stream : Stream) (items more : List (Stream × α)) :
    onStream stream (items ++ more) = onStream stream items ++ onStream stream more :=
  List.filterMap_append

/-- Items of one output are all of that output and none of the other. -/
theorem onStream_map {α : Type} (stream other : Stream) (items : List α) :
    onStream stream (items.map (other, ·)) = if other = stream then items else [] := by
  by_cases h : other = stream <;> simp [onStream, List.filterMap_map, h]

theorem onStream_cons {α : Type} (stream other : Stream) (item : α) (items : List (Stream × α)) :
    onStream stream ((other, item) :: items)
      = if other = stream then item :: onStream stream items else onStream stream items := by
  by_cases h : other = stream <;> simp [onStream, h]

/-- Every item belongs to one of the outputs. -/
theorem mem_map_snd_iff {α : Type} {item : α} {items : List (Stream × α)} :
    item ∈ items.map Prod.snd ↔ ∃ stream, item ∈ onStream stream items := by
  simp only [onStream, List.mem_map, List.mem_filterMap, Option.ite_none_right_eq_some,
    Option.some.injEq]
  constructor
  · rintro ⟨found, hfound, rfl⟩
    exact ⟨found.1, found, hfound, rfl, rfl⟩
  · rintro ⟨stream, found, hfound, -, rfl⟩
    exact ⟨found, hfound, rfl⟩

/-- What belongs to neither output is nothing. -/
theorem eq_nil_of_onStream {α : Type} {items : List (Stream × α)}
    (h : ∀ stream, onStream stream items = []) : items = [] := by
  have hnone : items.map Prod.snd = [] := by
    refine List.eq_nil_iff_forall_not_mem.2 fun item hitem => ?_
    obtain ⟨stream, hmem⟩ := mem_map_snd_iff.1 hitem
    rw [h stream] at hmem
    exact List.not_mem_nil hmem
  exact List.map_eq_nil_iff.1 hnone

end Build

namespace Job

/-- The bytes that are written to an output in an action. -/
def Action.bytes (stream : Stream) : Action → List UInt8
  | .write other bytes => if other = stream then bytes else []
  | _ => []

/-- The bytes that were written to an output. -/
def written (stream : Stream) (actions : List Action) : List UInt8 :=
  actions.flatMap (Action.bytes stream)

@[simp] theorem written_concat (stream : Stream) (actions : List Action) (action : Action) :
    written stream (actions ++ [action]) = written stream actions ++ action.bytes stream := by
  simp [written]

@[simp] theorem lane_setLane (job : Job) (stream other : Stream) (lane : Lane) :
    (job.setLane stream lane).lane other = if stream = other then lane else job.lane other := by
  cases stream <;> cases other <;> rfl

namespace Lane

/-- The output has these bytes written to it, and these lines of it were told or wait in the queue.
`begun` says whether the readers have begun. -/
inductive Carries (begun : Bool) (bytes : List UInt8) (lines : List String) (lane : Lane) : Prop
  /-- Nothing is read before the reader begins. -/
  | waiting (hbegun : begun = false) (hreading : lane.reading = false)
      (hbuffer : lane.buffer = .empty) (hbytes : bytes = lane.unread) (hlines : lines = [])
  | flowing (taken : List UInt8) (hbegun : begun = true) (hreading : lane.reading = true)
      (hbytes : bytes = taken ++ lane.unread) (hfollows : lane.buffer.Follows taken)
      (hlines : lines = LineBuffer.completed taken)
  /-- The reader has seen the end, after which nobody writes. -/
  | ended (hbegun : begun = true) (hreading : lane.reading = false) (hclosed : lane.isOpen = false)
      (hlines : lines = LineBuffer.linesOf bytes)

/-- Nothing is written before the command begins. -/
theorem carries_fresh : Lane.fresh.Carries false [] [] :=
  .waiting rfl rfl rfl rfl rfl

namespace Carries

variable {begun : Bool} {bytes : List UInt8} {lines : List String} {lane : Lane}

/-- What is written waits behind what was written before. -/
theorem write (h : lane.Carries begun bytes lines) (hopen : lane.isOpen = true)
    (more : List UInt8) :
    { lane with unread := lane.unread ++ more }.Carries begun (bytes ++ more) lines := by
  cases h with
  | waiting hbegun hreading hbuffer hbytes hlines =>
      exact .waiting hbegun hreading hbuffer (by rw [hbytes]) hlines
  | flowing taken hbegun hreading hbytes hfollows hlines =>
      exact .flowing taken hbegun hreading (by rw [hbytes, List.append_assoc]) hfollows hlines
  | ended _ _ hclosed => exact nomatch hopen.symm.trans hclosed

/-- Nobody writes any more. -/
theorem close (h : lane.Carries begun bytes lines) :
    { lane with isOpen := false }.Carries begun bytes lines := by
  cases h with
  | waiting hbegun hreading hbuffer hbytes hlines =>
      exact .waiting hbegun hreading hbuffer hbytes hlines
  | flowing taken hbegun hreading hbytes hfollows hlines =>
      exact .flowing taken hbegun hreading hbytes hfollows hlines
  | ended hbegun hreading _ hlines => exact .ended hbegun hreading rfl hlines

/-- The reader begins. -/
theorem begin (h : lane.Carries false bytes lines) :
    { lane with reading := true }.Carries true bytes lines := by
  cases h with
  | waiting _ _ hbuffer hbytes hlines =>
      refine .flowing [] rfl rfl hbytes ?_ hlines
      rw [hbuffer]
      exact LineBuffer.follows_empty
  | flowing _ hbegun | ended hbegun => exact nomatch hbegun

/-- The reader takes bytes, and the lines that they complete come into the queue. -/
theorem read (h : lane.Carries begun bytes lines) (hreading : lane.reading = true) (count : Nat) :
    { lane with
      unread := lane.unread.drop count
      buffer := (lane.buffer.feed (lane.unread.take count)).2 }.Carries begun bytes
        (lines ++ (lane.buffer.feed (lane.unread.take count)).1) := by
  cases h with
  | waiting _ hnot | ended _ hnot => exact nomatch hreading.symm.trans hnot
  | flowing taken hbegun _ hbytes hfollows hlines =>
      obtain ⟨hmore, hnext⟩ := hfollows.feed (lane.unread.take count)
      refine .flowing (taken ++ lane.unread.take count) hbegun hreading ?_ hnext ?_
      · rw [hbytes, List.append_assoc, List.take_append_drop]
      · rw [hlines, hmore]

/-- The reader sees the end, and the line that no line feed ended comes into the queue. -/
theorem readEnd (h : lane.Carries begun bytes lines) (hreading : lane.reading = true)
    (hread : lane.unread = []) (hclosed : lane.isOpen = false) :
    { lane with buffer := lane.buffer.finish.2, reading := false }.Carries begun bytes
      (lines ++ lane.buffer.finish.1.toList) := by
  cases h with
  | waiting _ hnot | ended _ hnot => exact nomatch hreading.symm.trans hnot
  | flowing taken hbegun _ hbytes hfollows hlines =>
      refine .ended hbegun rfl hclosed ?_
      rw [hbytes, hread, List.append_nil, hlines, hfollows.finish]

/-- Before the readers begin there are no lines. -/
theorem eq_nil (h : lane.Carries false bytes lines) : lines = [] := by
  cases h with
  | waiting _ _ _ _ hlines => exact hlines
  | flowing _ hbegun | ended hbegun => exact nomatch hbegun

/-- The lines are the first ones of what was written. -/
theorem prefix_linesOf (h : lane.Carries begun bytes lines) :
    lines <+: LineBuffer.linesOf bytes := by
  cases h with
  | waiting _ _ _ _ hlines => exact hlines ▸ List.nil_prefix
  | flowing taken _ _ hbytes _ hlines =>
      rw [hlines, hbytes]
      exact LineBuffer.completed_prefix_linesOf taken lane.unread
  | ended _ _ _ hlines => exact hlines ▸ List.prefix_refl _

/-- When the reader has seen the end the lines are those of all that was written. -/
theorem eq_linesOf (h : lane.Carries true bytes lines) (hreading : lane.reading = false) :
    lines = LineBuffer.linesOf bytes := by
  cases h with
  | waiting hbegun => exact nomatch hbegun
  | flowing _ _ hstill => exact nomatch hreading.symm.trans hstill
  | ended _ _ _ hlines => exact hlines

end Carries

end Lane

end Job

end Toolbench
