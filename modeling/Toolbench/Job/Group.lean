import Toolbench.System

/-!
# Process groups

A command is the leader of its own group, so that a signal reaches everything it started. The
number of a group is that of its leader and fits 31 bits.
-/

namespace Toolbench.Job

/-- A signal to a group. -/
inductive GroupSignal where
  /-- Ask to end. -/
  | interrupt
  /-- End at once. -/
  | kill
deriving DecidableEq, Repr

/-- What became of a signal. -/
inductive SignalOutcome where
  /-- There is no such group any more. -/
  | notRunning
  | signalled
deriving DecidableEq, Repr

/-- Send a signal to the group with a number, when `groups` are those that exist. -/
def signalGroup (groups : List Nat) (pid : Nat) (_ : GroupSignal) :
    Except SystemError SignalOutcome :=
  if Nat.pow 2 31 ≤ pid then .error .pidOutOfRange
  else .ok (if pid ∈ groups then .signalled else .notRunning)

end Toolbench.Job
