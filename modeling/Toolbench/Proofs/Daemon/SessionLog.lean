import Mathlib.Data.List.Induction
import Mathlib.Data.List.Nodup
import Toolbench.Proofs.Daemon.Client
import Toolbench.Proofs.Trace

/-!
# The log of a session

The session of a generation, as others see it from outside: which requests it accepted, which
callers stopped waiting, and which answers of its process were handled, with what was told of
each. `Fifo` says what a log must look like for answers to be paired with requests in order, and
`answered_eq_take` draws the conclusion for a process that never answers more than it was asked.
-/

namespace Toolbench

/-- The answer that a notice is about. -/
def Link.Notice.batch? : Link.Notice → Option Batch
  | answered batch => some batch
  | exited _ => none

namespace DaemonClient

open Machine (Event)

/-- Something that happens in a session. -/
inductive SessionEntry where
  /-- A request is accepted. -/
  | accepted (request : Nat) (fields : List String)
  /-- The caller of a request stops waiting. -/
  | abandoned (request : Nat)
  /-- An answer of the process is handled; `told` is what others see of it. -/
  | handled (batch : Batch) (told : List Output)
deriving Repr

namespace SessionEntry

/-- The request that an entry accepts. -/
def accepted? : SessionEntry → Option (Nat × List String)
  | accepted request fields => some (request, fields)
  | _ => none

/-- The request whose caller stops waiting in an entry. -/
def abandoned? : SessionEntry → Option Nat
  | abandoned request => some request
  | _ => none

/-- The answer that an entry handles. -/
def batch? : SessionEntry → Option Batch
  | handled batch _ => some batch
  | _ => none

/-- The requests that get an answer in an entry. -/
def answered : SessionEntry → List Nat
  | handled _ told => told.filterMap fun
      | .answered answer => some answer.id
      | _ => none
  | _ => []

end SessionEntry

/-- The client has a session for the process of a generation. -/
def inSession (client : DaemonClient) (generation : Nat) : Bool :=
  client.session.any (·.generation = generation)

/-- The answer that an action of the link of a generation completes. -/
def batch? (client : DaemonClient) (generation : Nat) (action : Link.Action) : Option Batch :=
  (((client.link? generation).bind (·.step? action)).bind (·.2)).bind Link.Notice.batch?

/-- What an event is in the session of a generation. A call to send a request of which nothing is
told was accepted. -/
def SessionEntry.ofEvent? (generation : Nat) (event : Event DaemonClient Action Output) :
    Option SessionEntry :=
  match event.action with
  | .request fields =>
      if event.before.inSession generation && event.told.isEmpty then
        some (.accepted event.before.nextRequest fields)
      else none
  | .abandon request =>
      if request < event.before.nextRequest then some (.abandoned request) else none
  | .link other action =>
      if other = generation ∧ event.before.inSession generation = true then
        (event.before.batch? generation action).map (.handled · event.told)
      else none
  | _ => none

/-- What happens in the session of a generation during a history. -/
def sessionLog (generation : Nat) (client : DaemonClient) (actions : List Action) :
    List SessionEntry :=
  (Machine.trace step? client actions).filterMap (SessionEntry.ofEvent? generation)

section Log

variable (log : List SessionEntry)

/-- The requests of a log, with their fields, in the order in which they were accepted. -/
def accepted : List (Nat × List String) :=
  log.filterMap SessionEntry.accepted?

/-- The numbers of the requests of a log. -/
def requests : List Nat :=
  (accepted log).map (·.1)

/-- The requests whose callers stopped waiting. -/
def abandoned : List Nat :=
  log.filterMap SessionEntry.abandoned?

/-- The answers of a log, in the order in which they were handled. -/
def handled : List Batch :=
  log.filterMap SessionEntry.batch?

/-- The requests that got one of these answers. -/
def answered : List Nat :=
  log.flatMap SessionEntry.answered

/-- The requests that were accepted and got no answer, the oldest first. -/
def unanswered : List Nat :=
  (requests log).filter (· ∉ answered log)

/-- What is told of an answer that is handled after a log: it is given to the oldest request
without one, which hears it unless its caller stopped waiting. -/
def pairing (batch : Batch) : List Output :=
  match unanswered log with
  | request :: _ => [.answered ⟨request, batch, decide (request ∉ abandoned log)⟩]
  | [] => [.unasked batch]

/-- Every answer was given to the request that was the oldest one without an answer. -/
def Fifo : Prop :=
  ∀ earlier batch told later, log = earlier ++ .handled batch told :: later →
    told = pairing earlier batch

/-- At no time were there more answers than requests. -/
def NeverAhead : Prop :=
  ∀ earlier, earlier <+: log → (handled earlier).length ≤ (accepted earlier).length

end Log

variable {log : List SessionEntry}

/-! ## One entry more -/

section Concat

variable (log) (entry : SessionEntry)

theorem accepted_concat : accepted (log ++ [entry]) = accepted log ++ entry.accepted?.toList := by
  cases h : entry.accepted? <;> simp [accepted, h]

theorem requests_concat :
    requests (log ++ [entry]) = requests log ++ (entry.accepted?.map (·.1)).toList := by
  rw [requests, accepted_concat, List.map_append, Option.toList_map, requests]

theorem abandoned_concat :
    abandoned (log ++ [entry]) = abandoned log ++ entry.abandoned?.toList := by
  cases h : entry.abandoned? <;> simp [abandoned, h]

theorem handled_concat : handled (log ++ [entry]) = handled log ++ entry.batch?.toList := by
  cases h : entry.batch? <;> simp [handled, h]

theorem answered_concat : answered (log ++ [entry]) = answered log ++ entry.answered := by
  simp [answered]

variable {entry}

/-- An entry that accepts nothing leaves the requests as they are. -/
theorem accepted_concat_of_none (h : entry.accepted? = none) :
    accepted (log ++ [entry]) = accepted log := by
  rw [accepted_concat, h, Option.toList_none, List.append_nil]

theorem requests_concat_of_none (h : entry.accepted? = none) :
    requests (log ++ [entry]) = requests log := by
  rw [requests, accepted_concat_of_none log h, requests]

theorem abandoned_concat_of_none (h : entry.abandoned? = none) :
    abandoned (log ++ [entry]) = abandoned log := by
  rw [abandoned_concat, h, Option.toList_none, List.append_nil]

theorem answered_concat_of_nil (h : entry.answered = []) :
    answered (log ++ [entry]) = answered log := by
  rw [answered_concat, h, List.append_nil]

end Concat

/-- An answer that is paired is an answer to the oldest request without one. -/
theorem answered_handled_pairing (batch : Batch) :
    SessionEntry.answered (.handled batch (pairing log batch)) = (unanswered log).take 1 := by
  rw [pairing]
  cases unanswered log <;> rfl

/-- The answer at a place of a log was handled after as many answers as there are before it. -/
theorem exists_handled_at {place : Nat} {batch : Batch}
    (h : (handled log)[place]? = some batch) : ∃ earlier told later,
      log = earlier ++ .handled batch told :: later ∧ (handled earlier).length = place := by
  induction log generalizing place with
  | nil => exact nomatch h
  | cons entry log ih =>
      cases entry with
      | handled first given =>
          cases place with
          | zero =>
              cases h
              exact ⟨[], given, log, rfl, rfl⟩
          | succ place =>
              obtain ⟨earlier, told, later, rfl, rfl⟩ := ih h
              exact ⟨.handled first given :: earlier, told, later, rfl, rfl⟩
      | accepted request fields =>
          obtain ⟨earlier, told, later, rfl, rfl⟩ := ih h
          exact ⟨.accepted request fields :: earlier, told, later, rfl, rfl⟩
      | abandoned request =>
          obtain ⟨earlier, told, later, rfl, rfl⟩ := ih h
          exact ⟨.abandoned request :: earlier, told, later, rfl, rfl⟩

/-! ## Logs in order -/

/-- The beginning of a log in order is in order. -/
theorem Fifo.left {later : List SessionEntry} (h : Fifo (log ++ later)) : Fifo log := by
  intro earlier batch told rest hlog
  refine h earlier batch told (rest ++ later) ?_
  rw [hlog, List.append_assoc, List.cons_append]

/-- A log in order stays so with a further entry, if an answer in it is paired. -/
theorem Fifo.concat {entry : SessionEntry} (h : Fifo log)
    (hentry : ∀ batch told, entry = .handled batch told → told = pairing log batch) :
    Fifo (log ++ [entry]) := by
  intro earlier batch told later hlog
  rcases List.eq_nil_or_concat later with rfl | ⟨front, last, rfl⟩
  · obtain ⟨rfl, hlast⟩ := List.append_inj' hlog rfl
    exact hentry batch told (List.singleton_inj.1 hlast)
  · have hlog' : log ++ [entry] = (earlier ++ .handled batch told :: front) ++ [last] := by
      rw [hlog, List.concat_eq_append, List.append_assoc, List.cons_append]
    exact h earlier batch told front (List.append_inj_left' hlog' rfl)

theorem NeverAhead.left {later : List SessionEntry} (h : NeverAhead (log ++ later)) :
    NeverAhead log :=
  fun earlier hinit => h earlier (hinit.trans (List.prefix_append log later))

/-- When the first requests are the answered ones, the others are the unanswered ones. -/
theorem unanswered_eq_drop {n : Nat} (hnodup : (requests log).Nodup)
    (hanswered : answered log = (requests log).take n) :
    unanswered log = (requests log).drop n := by
  have hdisjoint := List.disjoint_take_drop hnodup (Nat.le_refl n)
  have hfirst : ((requests log).take n).filter (· ∉ answered log) = [] := by
    rw [List.filter_eq_nil_iff]
    intro request hrequest
    simpa [hanswered] using hrequest
  have hrest : ((requests log).drop n).filter (· ∉ answered log) = (requests log).drop n := by
    rw [List.filter_eq_self]
    intro request hrequest
    simpa [hanswered] using fun htaken => hdisjoint htaken hrequest
  calc unanswered log
      = ((requests log).take n ++ (requests log).drop n).filter (· ∉ answered log) := by
        rw [List.take_append_drop, unanswered]
    _ = (requests log).drop n := by rw [List.filter_append, hfirst, hrest, List.nil_append]

/-- When requests were accepted once each and answered in order, and never more answers came than
requests, the requests that got answers are the first ones, one for each answer. -/
theorem answered_eq_take (hfifo : Fifo log) (hahead : NeverAhead log)
    (hnodup : (requests log).Nodup) :
    answered log = (requests log).take (handled log).length := by
  induction log using List.reverseRecOn with
  | nil => rfl
  | append_singleton log entry ih =>
      have hsub : (requests log).Nodup := by
        rw [requests_concat] at hnodup
        exact (List.nodup_append.1 hnodup).1
      have hih := ih hfifo.left hahead.left hsub
      have hlength : (handled log).length ≤ (requests log).length := by
        simpa [requests] using hahead log (List.prefix_append log [entry])
      cases entry with
      | accepted request fields =>
          rw [answered_concat_of_nil log rfl, handled_concat, requests_concat]
          show answered log = (requests log ++ [request]).take (handled log ++ []).length
          rw [List.append_nil, List.take_append_of_le_length hlength, hih]
      | abandoned request =>
          rw [answered_concat_of_nil log rfl, requests_concat_of_none log rfl, handled_concat]
          show answered log = (requests log).take (handled log ++ []).length
          rw [List.append_nil, hih]
      | handled batch told =>
          -- The answer goes to the first request that is left, and so the taken part grows by it.
          have htold : told = pairing log batch := hfifo log batch told [] rfl
          rw [answered_concat, requests_concat_of_none log rfl, handled_concat, htold,
            answered_handled_pairing, unanswered_eq_drop hsub hih, hih]
          show _ = (requests log).take (handled log ++ [batch]).length
          rw [List.length_append, List.take_add]
          rfl

/-- While requests wait and there never were more answers than requests, the next answer is for
the request whose place among the requests is that of the answer among the answers. -/
theorem pairing_eq_of_neverAhead (hfifo : Fifo log) (hahead : NeverAhead log)
    (hnodup : (requests log).Nodup) (hlt : (handled log).length < (accepted log).length)
    (batch : Batch) :
    ∃ request fields, (accepted log)[(handled log).length]? = some (request, fields) ∧
      pairing log batch = [.answered ⟨request, batch, decide (request ∉ abandoned log)⟩] := by
  have hanswered := answered_eq_take hfifo hahead hnodup
  have hwait := unanswered_eq_drop hnodup hanswered
  obtain ⟨⟨request, fields⟩, hget⟩ : ∃ entry, (accepted log)[(handled log).length]? = some entry :=
    ⟨_, List.getElem?_eq_getElem hlt⟩
  have hrequest : (requests log)[(handled log).length]? = some request := by
    rw [requests, List.getElem?_map, hget]
    rfl
  refine ⟨request, fields, hget, ?_⟩
  rw [pairing, hwait, List.drop_eq_getElem?_toList_append, hrequest]
  rfl

end DaemonClient

end Toolbench
