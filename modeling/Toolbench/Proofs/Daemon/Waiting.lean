import Mathlib.Data.List.Perm.Basic
import Toolbench.Proofs.Daemon.Coherence

/-!
# Requests that wait

A request waits in the session of the process that was given it. When a call to stop the daemon
takes the session, its requests wait there until the call answers them. `Exchange` has one rule for
each thing that a step can do to the requests that wait, and `Step.exchange` says that every step
does one of them.
-/

namespace Toolbench.DaemonClient

variable {client next : DaemonClient} {action : Action} {told : List Output}

/-! ## Answers -/

/-- The answer that others see. -/
def Output.answer? : Output → Option (Answer Nat)
  | .answered answer => some answer
  | _ => none

/-- The answers of a session that is over are empty ones, one for each request that waited. -/
theorem answers_drained (session : Session) :
    session.drained.filterMap Output.answer? = session.pending.waiters.map (·.answer []) := by
  show ((session.pending.waiters.map (·.answer [])).map Output.answered).filterMap _ = _
  rw [List.filterMap_map]
  exact List.filterMap_some

/-! ## Places in queues -/

/-- The requests of a session that wait, each with the generation of the session. -/
def Session.waiters (session : Session) : List (Nat × Waiter Nat) :=
  session.pending.waiters.map (session.generation, ·)

/-- The requests that a call to stop the daemon still has to answer. -/
def StopPoint.waiters : StopPoint → List (Nat × Waiter Nat)
  | .taken session => session.waiters
  | _ => []

/-- All requests that wait for answers, each with the generation that it was accepted in. -/
def waiters (client : DaemonClient) : List (Nat × Waiter Nat) :=
  (client.session.map Session.waiters).getD [] ++ client.stops.flatMap StopPoint.waiters

theorem waiters_of_session {session : Session} (h : client.session = some session) :
    client.waiters = session.waiters ++ client.stops.flatMap StopPoint.waiters := by
  rw [waiters, h]
  rfl

theorem waiters_of_none (h : client.session = none) :
    client.waiters = client.stops.flatMap StopPoint.waiters := by
  rw [waiters, h]
  rfl

theorem Session.mem_waiters {session : Session} {place : Nat × Waiter Nat} :
    place ∈ session.waiters ↔
      place.1 = session.generation ∧ place.2 ∈ session.pending.waiters := by
  obtain ⟨generation, waiter⟩ := place
  simp [Session.waiters, eq_comm, and_comm]

/-- The generations in the places are those of the sessions. -/
theorem Session.map_waiters (session : Session) :
    session.waiters.map (·.2) = session.pending.waiters := by
  rw [Session.waiters, List.map_map]
  exact List.map_id _

/-- A request waits in the session, or in one that a call to stop has taken. -/
theorem mem_waiters {place : Nat × Waiter Nat} :
    place ∈ client.waiters ↔ ∃ session,
      (client.session = some session ∨ .taken session ∈ client.stops) ∧
        place ∈ session.waiters := by
  have hsession : place ∈ (client.session.map Session.waiters).getD [] ↔
      ∃ session, client.session = some session ∧ place ∈ session.waiters := by
    cases client.session <;> simp
  have hstops : place ∈ client.stops.flatMap StopPoint.waiters ↔
      ∃ session, .taken session ∈ client.stops ∧ place ∈ session.waiters := by
    rw [List.mem_flatMap]
    constructor
    · rintro ⟨point, hpoint, hplace⟩
      cases point with
      | taken session => exact ⟨session, hpoint, hplace⟩
      | _ => exact nomatch hplace
    · rintro ⟨session, hpoint, hplace⟩
      exact ⟨.taken session, hpoint, hplace⟩
  simp only [waiters, List.mem_append, hsession, hstops, or_and_right, exists_or]

/-- A new session has no requests. -/
theorem waiters_attempt (h : client.session = none) (result : Except SystemError Unit) :
    (client.attempt result).waiters = client.waiters := by
  rcases client.attempt_cases result with ⟨-, -, heq⟩ | ⟨-, -, heq⟩ | ⟨-, -, heq⟩
  · rw [heq, waiters_of_none h]
    rfl
  · rw [heq]
    rfl
  · rw [heq]
    rfl

/-- The place of a request whose caller stops waiting. -/
def silence (request : Nat) (place : Nat × Waiter Nat) : Nat × Waiter Nat :=
  if place.2.id = request then (place.1, { place.2 with listening := false }) else place

/-- A caller that stops waiting keeps its place. -/
theorem silence_keeps (request : Nat) (place : Nat × Waiter Nat) :
    (silence request place).1 = place.1 ∧ (silence request place).2.id = place.2.id := by
  unfold silence
  split <;> exact ⟨rfl, rfl⟩

theorem waiters_session_abandon (session : Session) (request : Nat) :
    (session.abandon request).waiters = session.waiters.map (silence request) := by
  show (session.pending.waiters.map _).map (session.generation, ·)
    = (session.pending.waiters.map _).map _
  rw [List.map_map, List.map_map]
  refine List.map_congr_left fun waiter _ => ?_
  by_cases hsame : waiter.id = request <;> simp [silence, hsame]

theorem waiters_abandon (client : DaemonClient) (request : Nat) :
    (client.abandon request).waiters = client.waiters.map (silence request) := by
  have hsession : ((client.session.map (·.abandon request)).map Session.waiters).getD []
      = ((client.session.map Session.waiters).getD []).map (silence request) := by
    cases client.session with
    | none => rfl
    | some session => exact waiters_session_abandon session request
  rw [waiters, waiters, List.map_append, ← hsession]
  congr 1
  show (client.stops.map _).flatMap _ = _
  rw [List.flatMap_map, List.map_flatMap]
  refine List.flatMap_congr fun point _ => ?_
  cases point with
  | taken session => exact waiters_session_abandon session request
  | _ => rfl

/-- What an item of a list holds can be taken out of it. -/
theorem perm_flatMap_set {α β : Type} {f : α → List β} {items : List α} {index : Nat}
    {old new : α} (hold : items[index]? = some old) (hnew : f new = []) :
    (f old ++ (items.set index new).flatMap f).Perm (items.flatMap f) := by
  induction items generalizing index with
  | nil => exact nomatch hold
  | cons item items ih =>
      cases index with
      | zero =>
          cases hold
          simp [hnew]
      | succ index =>
          have hrest := ih hold
          rw [List.set_cons_succ, List.flatMap_cons, List.flatMap_cons]
          exact (List.perm_append_comm_assoc _ _ _).trans (hrest.append_left (f item))

/-- The call to stop at an index has answered what it had to. -/
theorem waiters_setStop {index : Nat} {old new : StopPoint} (hold : client.stops[index]? = some old)
    (hnew : new.waiters = []) :
    (old.waiters ++ (client.setStop index new).waiters).Perm client.waiters :=
  (List.perm_append_comm_assoc _ _ _).trans ((perm_flatMap_set hold hnew).append_left _)

/-! ## What a step does to requests -/

/-- One rule for each thing that a step can do to the requests that wait. -/
inductive Exchange (client next : DaemonClient) : Action → List Output → Prop where
  | accepts (fields : List String) (session : Session) (hsession : client.session = some session)
      (hnext : next.nextRequest = client.nextRequest + 1)
      (hwaiters : next.waiters.Perm
        (client.waiters ++ [(session.generation, ⟨client.nextRequest, true⟩)])) :
      Exchange client next (.request fields) []
  | abandons (request : Nat) (hnext : next.nextRequest = client.nextRequest)
      (hwaiters : next.waiters = client.waiters.map (silence request)) :
      Exchange client next (.abandon request) []
  /-- The requests that are gone got one answer each. There may be none. -/
  | answers (action : Action) (told : List Output) (gone : List (Nat × Waiter Nat)) (batch : Batch)
      (haccepts : ∀ fields, action = .request fields → told ≠ [])
      (habandons : ∀ request, action ≠ .abandon request)
      (hnext : client.nextRequest ≤ next.nextRequest)
      (htold : told.filterMap Output.answer? = gone.map (·.2.answer batch))
      (hwaiters : (gone ++ next.waiters).Perm client.waiters) :
      Exchange client next action told

namespace Exchange

/-- Nothing is done to the requests. -/
theorem still (haccepts : ∀ fields, action = .request fields → told ≠ [])
    (habandons : ∀ request, action ≠ .abandon request)
    (hnext : client.nextRequest ≤ next.nextRequest)
    (htold : told.filterMap Output.answer? = []) (hwaiters : next.waiters.Perm client.waiters) :
    Exchange client next action told :=
  .answers action told [] [] haccepts habandons hnext htold hwaiters

/-- The requests of a session get empty answers. -/
theorem drain (session : Session) (haccepts : ∀ fields, action ≠ .request fields)
    (habandons : ∀ request, action ≠ .abandon request)
    (hnext : next.nextRequest = client.nextRequest)
    (hwaiters : (session.waiters ++ next.waiters).Perm client.waiters) :
    Exchange client next action session.drained := by
  refine .answers action _ session.waiters [] (fun fields heq => absurd heq (haccepts fields))
    habandons (Nat.le_of_eq hnext.symm) ?_ hwaiters
  rw [answers_drained, Session.waiters, List.map_map]
  rfl

end Exchange

/-- Every step does one of these things to the requests. -/
theorem Step.exchange (h : Step client action next told) (hclient : client.Coherent) :
    Exchange client next action told := by
  cases h with
  | startUp => exact .still nofun nofun (Nat.le_refl _) rfl (.refl _)
  | start result hdown =>
      have hnone := hclient.session_of_not_isUp hdown
      exact .still nofun nofun (Nat.le_of_eq (by rw [attempt_nextRequest])) rfl
        (.of_eq (waiters_attempt hnone result))
  | stopNothing hnone =>
      refine .still nofun nofun (Nat.le_refl _) rfl (.of_eq ?_)
      rw [waiters_of_none hnone, waiters_of_none rfl]
      simp [StopPoint.waiters]
  | stop session hsession =>
      refine .still nofun nofun (Nat.le_refl _) rfl ?_
      rw [waiters_of_session hsession, waiters_of_none rfl, List.flatMap_append,
        List.flatMap_singleton]
      exact List.perm_append_comm
  | dismiss index session hpoint =>
      have hdismissed : (client.dismissLink session.generation).stops[index]?
          = some (.taken session) := hpoint
      exact .drain session nofun nofun rfl (waiters_setStop hdismissed rfl)
  | stopReturns index generation link hpoint =>
      exact .still nofun nofun (Nat.le_refl _) rfl (waiters_setStop hpoint rfl)
  | accept fields session link _ hsession =>
      refine .accepts fields session hsession rfl ?_
      have hqueue : Session.waiters
          { session with pending := session.pending.enqueue client.nextRequest }
            = session.waiters ++ [(session.generation, ⟨client.nextRequest, true⟩)] := by
        show (session.pending.waiters ++ [_]).map _ = _
        rw [List.map_append]
        rfl
      rw [waiters_of_session hsession, waiters_of_session rfl, hqueue, List.append_assoc,
        List.append_assoc]
      exact List.perm_append_comm.append_left session.waiters
  | refuse => exact .still (fun _ _ => nofun) nofun (Nat.le_succ _) rfl (.refl _)
  | abandon request => exact .abandons request rfl (client.waiters_abandon request)
  | timerDue | timerLate | restartUp => exact .still nofun nofun (Nat.le_refl _) rfl (.refl _)
  | restart result _ hdown =>
      have hnone : { client with restarting := client.restarting - 1 }.session = none :=
        hclient.session_of_not_isUp hdown
      exact .still nofun nofun (Nat.le_of_eq (by rw [attempt_nextRequest])) rfl
        (.of_eq (waiters_attempt hnone result))
  | link | unasked => exact .still nofun nofun (Nat.le_refl _) rfl (.refl _)
  | answer generation link changed batch session waiter waiters _ _ hsession _ hqueue =>
      have hfirst : session.waiters = (session.generation, waiter)
          :: Session.waiters { session with pending := ⟨waiters⟩ } := by
        rw [Session.waiters, hqueue]
        rfl
      refine .answers _ _ [(session.generation, waiter)] batch nofun nofun (Nat.le_refl _) rfl
        (.of_eq ?_)
      rw [waiters_of_session hsession, waiters_of_session rfl, hfirst]
      rfl
  | exit generation link session _ _ hsession | crash generation link _ session _ _ _ hsession =>
      refine .drain session nofun nofun rfl (.of_eq ?_)
      rw [waiters_of_session hsession, waiters_of_none rfl]
      rfl

end Toolbench.DaemonClient
