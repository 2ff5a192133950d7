import Toolbench.Daemon.Assembly

/-!
# Requests that wait for answers

Answers do not say which request they belong to: the first answer is for the request that has
waited longest. A caller that stops waiting keeps its place, so that its answer goes to nobody
else.
-/

namespace Toolbench

/-- A request in the queue. -/
structure Waiter (α : Type) where
  id : α
  /-- The caller still waits for the answer. -/
  listening : Bool
deriving DecidableEq, Repr

/-- An answer to a request. -/
structure Answer (α : Type) where
  id : α
  batch : Batch
  /-- The caller gets it; otherwise nobody does. -/
  heard : Bool
deriving DecidableEq, Repr

/-- The answer to a request in the queue. -/
def Waiter.answer {α : Type} (waiter : Waiter α) (batch : Batch) : Answer α :=
  ⟨waiter.id, batch, waiter.listening⟩

/-- Requests in the order in which they were made. -/
structure Pending (α : Type) where
  waiters : List (Waiter α)
deriving DecidableEq, Repr

namespace Pending

variable {α : Type}

/-- No request waits. -/
def empty : Pending α :=
  ⟨[]⟩

/-- How many requests wait. -/
def size (pending : Pending α) : Nat :=
  pending.waiters.length

/-- No request waits. -/
def isEmpty (pending : Pending α) : Bool :=
  pending.waiters.isEmpty

/-- Add a request behind the others. -/
def enqueue (pending : Pending α) (id : α) : Pending α :=
  ⟨pending.waiters ++ [⟨id, true⟩]⟩

/-- The caller of a request stops waiting. -/
def abandon [DecidableEq α] (pending : Pending α) (id : α) : Pending α :=
  ⟨pending.waiters.map fun waiter =>
    if waiter.id = id then { waiter with listening := false } else waiter⟩

/-- Give an answer to the request that has waited longest, if there is one. -/
def resolveNext (pending : Pending α) (batch : Batch) : Option (Answer α × Pending α) :=
  match pending.waiters with
  | [] => none
  | waiter :: waiters => some (waiter.answer batch, ⟨waiters⟩)

/-- Give every request an empty answer. -/
def drain (pending : Pending α) : List (Answer α) × Pending α :=
  (pending.waiters.map (·.answer []), empty)

end Pending

end Toolbench
