import Toolbench.Proofs.Daemon.Turn
import Toolbench.Proofs.Daemon.Waiting

/-!
# Every request gets one answer

`Accounted` balances the books of a client: the requests that it accepted are those that it
answered and those that wait, each counted once. A request may wait in a session that a call to
stop the daemon took and has not answered yet; between whole calls there is no such session, and
`requests_answered_once` says what that means for the requests.
-/

namespace Toolbench.DaemonClient

open Machine (Event)

variable {client next : DaemonClient} {turn : Turn} {action : Action} {told : List Output}

/-! ## The books of a history -/

/-- What has happened to a client so far. -/
abbrev History := List (Event DaemonClient Action Output)

/-- What happens when a client does these actions. -/
def history (client : DaemonClient) (actions : List Action) : History :=
  Machine.trace step? client actions

/-- A relation between the past and the present that every step keeps, from a state in which status,
session, generation and timers agree, holds after every history. -/
theorem history_invariant {P : History → DaemonClient → Prop}
    (hstep : ∀ past client action next told, client.Coherent → P past client →
      Step client action next told → P (past ++ [⟨client, action, next, told⟩]) next)
    {settings : DaemonSettings} {actions : List Action} (hinitial : P [] (ofSettings settings))
    (hrun : (ofSettings settings).run? actions = some (client, told)) :
    P ((ofSettings settings).history actions) client := by
  have hboth := Machine.run?_trace_invariant step?
    (P := fun past client => client.Coherent ∧ P past client)
    (fun past client action next told h haction => by
      have hrule := Step.of_step? haction
      exact ⟨h.1.step hrule, hstep past client action next told h.1 h.2 hrule⟩)
    hrun ⟨.initial settings, hinitial⟩
  exact hboth.2

/-- The request that an event accepts. Nothing is told of a request that is accepted. -/
def accepted? (event : Event DaemonClient Action Output) : Option Nat :=
  match event.action with
  | .request _ => if event.told.isEmpty then some event.before.nextRequest else none
  | _ => none

/-- The request whose caller stops waiting in an event. -/
def abandoned? (event : Event DaemonClient Action Output) : Option Nat :=
  match event.action with
  | .abandon request => if request < event.before.nextRequest then some request else none
  | _ => none

namespace History

variable (past : History) (event : Event DaemonClient Action Output)

/-- The requests that were accepted, in order. -/
def accepted : List Nat :=
  past.filterMap accepted?

/-- The requests whose callers stopped waiting. -/
def abandoned : List Nat :=
  past.filterMap abandoned?

/-- The answers that were given, in order. -/
def answers : List (Answer Nat) :=
  past.flatMap fun event => event.told.filterMap Output.answer?

/-- The requests that were answered. -/
def answered : List Nat :=
  (answers past).map (·.id)

/-- The requests that were accepted and not answered. -/
def unanswered : List Nat :=
  (accepted past).filter (· ∉ answered past)

/-- The place in a queue of a request that a history has accepted. -/
def waiterOf (request : Nat) : Waiter Nat :=
  ⟨request, decide (request ∉ abandoned past)⟩

theorem accepted_concat : accepted (past ++ [event]) = accepted past ++ (accepted? event).toList := by
  cases h : accepted? event <;> simp [accepted, h]

theorem abandoned_concat :
    abandoned (past ++ [event]) = abandoned past ++ (abandoned? event).toList := by
  cases h : abandoned? event <;> simp [abandoned, h]

theorem answered_concat : answered (past ++ [event])
    = answered past ++ (event.told.filterMap Output.answer?).map (·.id) := by
  simp [answered, answers]

end History

/-! ## The balance -/

/-- The requests that were accepted are those that were answered and those that wait. -/
structure Accounted (past : History) (client : DaemonClient) : Prop where
  numbered : ∀ request ∈ past.accepted, request < client.nextRequest
  nodup : past.accepted.Nodup
  abandoned_old : ∀ request ∈ past.abandoned, request < client.nextRequest
  balance : (past.answered ++ client.waiters.map (·.2.id)).Perm past.accepted
  listening : ∀ place ∈ client.waiters, place.2 = past.waiterOf place.2.id

namespace Accounted

variable {past : History}

/-- Before the first call nothing was accepted. -/
theorem initial (settings : DaemonSettings) : Accounted [] (ofSettings settings) where
  numbered _ h := absurd h List.not_mem_nil
  nodup := List.nodup_nil
  abandoned_old _ h := absurd h List.not_mem_nil
  balance := .refl []
  listening _ h := absurd h List.not_mem_nil

/-- Requests that waited get their answers. -/
theorem answers (h : Accounted past client) (gone : List (Nat × Waiter Nat)) (batch : Batch)
    (haccepts : ∀ fields, action = .request fields → told ≠ [])
    (habandons : ∀ request, action ≠ .abandon request)
    (hnext : client.nextRequest ≤ next.nextRequest)
    (htold : told.filterMap Output.answer? = gone.map (·.2.answer batch))
    (hwaiters : (gone ++ next.waiters).Perm client.waiters) :
    Accounted (past ++ [⟨client, action, next, told⟩]) next := by
  have hno : accepted? ⟨client, action, next, told⟩ = none := by
    cases action with
    | request fields => exact if_neg fun hempty => haccepts fields rfl (List.isEmpty_iff.1 hempty)
    | _ => rfl
  have hnot : abandoned? ⟨client, action, next, told⟩ = none := by
    cases action with
    | abandon request => exact absurd rfl (habandons request)
    | _ => rfl
  have haccepted : History.accepted (past ++ [⟨client, action, next, told⟩]) = past.accepted := by
    rw [History.accepted_concat, hno, Option.toList_none, List.append_nil]
  have habandoned : History.abandoned (past ++ [⟨client, action, next, told⟩]) = past.abandoned := by
    rw [History.abandoned_concat, hnot, Option.toList_none, List.append_nil]
  have hanswered : History.answered (past ++ [⟨client, action, next, told⟩])
      = past.answered ++ gone.map (·.2.id) := by
    rw [History.answered_concat, htold, List.map_map]
    rfl
  constructor
  case numbered =>
    rw [haccepted]
    exact fun request hmem => Nat.lt_of_lt_of_le (h.numbered request hmem) hnext
  case nodup =>
    rw [haccepted]
    exact h.nodup
  case abandoned_old =>
    rw [habandoned]
    exact fun request hmem => Nat.lt_of_lt_of_le (h.abandoned_old request hmem) hnext
  case balance =>
    rw [haccepted, hanswered, List.append_assoc, ← List.map_append]
    exact ((hwaiters.map (·.2.id)).append_left past.answered).trans h.balance
  case listening =>
    intro place hmem
    have hold := h.listening place (hwaiters.subset (List.mem_append_right gone hmem))
    rw [History.waiterOf, habandoned]
    exact hold

/-- An accepted request waits. -/
theorem accepts (h : Accounted past client) (fields : List String) (session : Session)
    (hnext : next.nextRequest = client.nextRequest + 1)
    (hwaiters : next.waiters.Perm
      (client.waiters ++ [(session.generation, ⟨client.nextRequest, true⟩)])) :
    Accounted (past ++ [⟨client, .request fields, next, []⟩]) next := by
  have haccepted : History.accepted (past ++ [⟨client, .request fields, next, []⟩])
      = past.accepted ++ [client.nextRequest] := History.accepted_concat past _
  have habandoned : History.abandoned (past ++ [⟨client, .request fields, next, []⟩])
      = past.abandoned := (History.abandoned_concat past _).trans (List.append_nil _)
  have hanswered : History.answered (past ++ [⟨client, .request fields, next, []⟩])
      = past.answered := (History.answered_concat past _).trans (List.append_nil _)
  have hfresh : client.nextRequest ∉ past.abandoned := fun hmem =>
    Nat.lt_irrefl _ (h.abandoned_old _ hmem)
  constructor
  case numbered =>
    rw [haccepted, hnext]
    intro request hmem
    rcases List.mem_append.1 hmem with hold | hnew
    · exact Nat.lt_succ_of_lt (h.numbered request hold)
    · rw [List.mem_singleton.1 hnew]
      exact Nat.lt_succ_self _
  case nodup =>
    rw [haccepted, List.nodup_append]
    refine ⟨h.nodup, List.nodup_singleton _, ?_⟩
    intro request hold other hnew heq
    rw [List.mem_singleton.1 hnew] at heq
    exact Nat.lt_irrefl _ (heq ▸ h.numbered request hold)
  case abandoned_old =>
    rw [habandoned, hnext]
    exact fun request hmem => Nat.lt_succ_of_lt (h.abandoned_old request hmem)
  case balance =>
    have hids : (next.waiters.map (·.2.id)).Perm
        (client.waiters.map (·.2.id) ++ [client.nextRequest]) := by
      simpa using hwaiters.map (·.2.id)
    rw [haccepted, hanswered]
    refine (hids.append_left past.answered).trans ?_
    rw [← List.append_assoc]
    exact h.balance.append_right _
  case listening =>
    intro place hmem
    rw [History.waiterOf, habandoned]
    rcases List.mem_append.1 (hwaiters.subset hmem) with hold | hnew
    · exact h.listening place hold
    · rw [List.mem_singleton.1 hnew, decide_eq_true hfresh]

/-- The requests that wait were accepted before. -/
theorem id_lt_nextRequest (h : Accounted past client) {place : Nat × Waiter Nat}
    (hplace : place ∈ client.waiters) : place.2.id < client.nextRequest :=
  h.numbered _ (h.balance.subset (List.mem_append_right _ (List.mem_map_of_mem hplace)))

/-- A caller stops waiting. A number that is not in use yet is in no queue. -/
theorem abandons (h : Accounted past client) (request : Nat)
    (hnext : next.nextRequest = client.nextRequest)
    (hwaiters : next.waiters = client.waiters.map (silence request)) :
    Accounted (past ++ [⟨client, .abandon request, next, []⟩]) next := by
  have haccepted : History.accepted (past ++ [⟨client, .abandon request, next, []⟩])
      = past.accepted := (History.accepted_concat past _).trans (List.append_nil _)
  have hanswered : History.answered (past ++ [⟨client, .abandon request, next, []⟩])
      = past.answered := (History.answered_concat past _).trans (List.append_nil _)
  have habandoned : ∀ other, other < client.nextRequest →
      (other ∈ History.abandoned (past ++ [⟨client, .abandon request, next, []⟩]) ↔
        other ∈ past.abandoned ∨ other = request) := by
    intro other hlt
    rw [History.abandoned_concat, List.mem_append]
    by_cases hold : request < client.nextRequest
    · simp [abandoned?, hold]
    · have hne : other ≠ request := by omega
      simp [abandoned?, hold, hne]
  have hids : next.waiters.map (·.2.id) = client.waiters.map (·.2.id) := by
    rw [hwaiters, List.map_map]
    exact List.map_congr_left fun place _ => (silence_keeps request place).2
  constructor
  case numbered =>
    rw [haccepted, hnext]
    exact h.numbered
  case nodup =>
    rw [haccepted]
    exact h.nodup
  case abandoned_old =>
    rw [History.abandoned_concat, hnext]
    intro other hmem
    rcases List.mem_append.1 hmem with hold | hnew
    · exact h.abandoned_old other hold
    · obtain ⟨hlt, hsame⟩ := Option.ite_none_right_eq_some.1 (Option.mem_toList.1 hnew)
      exact Option.some.inj hsame ▸ hlt
  case balance =>
    rw [haccepted, hanswered, hids]
    exact h.balance
  case listening =>
    rw [hwaiters]
    intro silenced hmem
    obtain ⟨place, hplace, rfl⟩ := List.mem_map.1 hmem
    have hmark := habandoned place.2.id (h.id_lt_nextRequest hplace)
    by_cases hsame : place.2.id = request
    · rw [silence, if_pos hsame, History.waiterOf,
        decide_eq_false fun hnot => hnot (hmark.2 (.inr hsame))]
    · rw [silence, if_neg hsame, History.waiterOf, h.listening place hplace]
      simp only [History.waiterOf, hmark, hsame, or_false]

/-- Every step keeps the balance. -/
theorem step (h : Accounted past client) (hexchange : Exchange client next action told) :
    Accounted (past ++ [⟨client, action, next, told⟩]) next := by
  cases hexchange with
  | accepts fields session _ hnext hwaiters => exact h.accepts fields session hnext hwaiters
  | abandons request hnext hwaiters => exact h.abandons request hnext hwaiters
  | answers _ _ gone batch haccepts habandons hnext htold hwaiters =>
      exact h.answers gone batch haccepts habandons hnext htold hwaiters

/-- The books of every history are balanced. -/
theorem of_run {settings : DaemonSettings} {actions : List Action}
    (hrun : (ofSettings settings).run? actions = some (client, told)) :
    Accounted ((ofSettings settings).history actions) client :=
  history_invariant (fun _ _ _ _ _ hclient h hstep => h.step (hstep.exchange hclient))
    (initial settings) hrun

/-- No request is answered twice. -/
theorem answered_nodup (h : Accounted past client) : past.answered.Nodup :=
  (List.nodup_append.1 (h.balance.nodup_iff.2 h.nodup)).1

/-- Only accepted requests are answered. -/
theorem answered_subset (h : Accounted past client) : past.answered ⊆ past.accepted :=
  fun _ hmem => h.balance.subset (List.mem_append_left _ hmem)

/-- The requests that wait are those that were accepted and not answered. -/
theorem waiters_perm (h : Accounted past client) :
    (client.waiters.map (·.2)).Perm (past.unanswered.map past.waiterOf) := by
  -- Each accepted request is on one side of the balance, so to leave out the answered requests
  -- leaves exactly those that wait.
  obtain ⟨-, -, hdisjoint⟩ := List.nodup_append.1 (h.balance.nodup_iff.2 h.nodup)
  have hanswered : past.answered.filter (· ∉ past.answered) = [] := by
    refine List.filter_eq_nil_iff.2 fun request hmem => ?_
    simpa using hmem
  have hwaiting : (client.waiters.map (·.2.id)).filter (· ∉ past.answered)
      = client.waiters.map (·.2.id) := by
    refine List.filter_eq_self.2 fun request hmem => ?_
    simpa using fun hold => hdisjoint request hold request hmem rfl
  have hids : (client.waiters.map (·.2.id)).Perm past.unanswered := by
    have hrest := h.balance.filter (· ∉ past.answered)
    rw [List.filter_append, hanswered, hwaiting, List.nil_append] at hrest
    exact hrest
  have hwaiters : client.waiters.map (·.2) = (client.waiters.map (·.2.id)).map past.waiterOf := by
    rw [List.map_map]
    exact List.map_congr_left h.listening
  rw [hwaiters]
  exact hids.map past.waiterOf

/-- A request without an answer waits in the session, or in one that a call to stop has taken. -/
theorem waits (h : Accounted past client) {request : Nat} (hrequest : request ∈ past.unanswered) :
    (∃ session, client.session = some session ∧
      past.waiterOf request ∈ session.pending.waiters) ∨
    ∃ session, .taken session ∈ client.stops ∧
      past.waiterOf request ∈ session.pending.waiters := by
  have hmem : past.waiterOf request ∈ client.waiters.map (·.2) :=
    h.waiters_perm.symm.subset (List.mem_map_of_mem hrequest)
  obtain ⟨place, hplace, hwaiter⟩ := List.mem_map.1 hmem
  obtain ⟨session, hsession, hwaits⟩ := mem_waiters.1 hplace
  rw [← hwaiter]
  rcases hsession with hcurrent | htaken
  · exact .inl ⟨session, hcurrent, (Session.mem_waiters.1 hwaits).2⟩
  · exact .inr ⟨session, htaken, (Session.mem_waiters.1 hwaits).2⟩

end Accounted

/-! ## The end of a session -/

/-- A session goes on, or it ends with an empty answer for each of its requests, or a call to stop
takes it. -/
theorem Step.session_cases (h : Step client action next told) (hclient : client.Coherent)
    {session : Session} (hsession : client.session = some session) :
    next.session.map (·.generation) = some session.generation ∨
      next.session = none ∧
        (told = session.drained ∨ action = .stop ∧ .taken session ∈ next.stops) := by
  have hup : client.IsUp := .inr (hclient.status_of_session hsession)
  cases h with
  | start _ hdown | restart _ _ hdown => exact absurd hup hdown
  | stopNothing hnone => exact nomatch hsession.symm.trans hnone
  | stop taken htaken =>
      cases hsession.symm.trans htaken
      exact .inr ⟨rfl, .inr ⟨rfl, List.mem_append_right _ (List.mem_singleton_self _)⟩⟩
  | exit _ _ _ _ _ hfound | crash _ _ _ _ _ _ _ hfound =>
      cases hsession.symm.trans hfound
      exact .inr ⟨rfl, .inl rfl⟩
  | accept _ _ _ _ hfound =>
      cases hsession.symm.trans hfound
      exact .inl rfl
  | answer _ _ _ _ _ _ _ _ _ hfound =>
      cases hsession.symm.trans hfound
      exact .inl rfl
  | abandon request =>
      refine .inl ?_
      show (client.session.map _).map _ = _
      rw [hsession]
      rfl
  | startUp | dismiss | stopReturns | refuse | timerDue | timerLate | restartUp | link | unasked =>
      exact .inl (congrArg (Option.map _) hsession)

/-- In a whole turn a session goes on, or it ends with an empty answer for each of its requests. -/
theorem turn?_session_cases (h : client.turn? turn = some (next, told)) (hclient : client.Coherent)
    {session : Session} (hsession : client.session = some session) :
    next.session.map (·.generation) = some session.generation ∨
      next.session = none ∧ told = session.drained := by
  cases turn with
  | stop =>
      cases (turn?_stop hsession).symm.trans h
      exact .inr ⟨rfl, rfl⟩
  | timer generation result =>
      have hlate : ¬ client.IsDue generation := fun hdue =>
        by cases hdue.1.symm.trans (hclient.status_of_session hsession)
      cases (turn?_timer_of_not_isDue (mem_timers_of_turn? h) hlate result).symm.trans h
      exact .inl (congrArg (Option.map _) hsession)
  | start | stopReturns | request | abandon | link =>
      rw [turn?, Turn.actions, run?, Machine.run?_singleton] at h
      rcases (Step.of_step? h).session_cases hclient hsession with hsame | ⟨hnone, hend⟩
      · exact .inl hsame
      · exact .inr ⟨hnone, hend.resolve_right fun hstop => by cases hstop.1⟩

/-- No request waits in a session that there is not. -/
theorem pendingCount_of_none (h : client.session = none) : client.pendingCount = 0 := by
  rw [pendingCount, h]
  rfl

/-! ## What becomes of requests -/

/-- What becomes of the requests of a history, whoever acts between the parts of a call. -/
structure Served (past : History) (client : DaemonClient) : Prop where
  accepted : ∀ request ∈ past.answered, request ∈ past.accepted
  once : past.answered.Nodup
  /-- A request without an answer waits in the session of a daemon that runs, or in a session that
  a call to stop has taken. -/
  waits : ∀ request ∈ past.unanswered,
    (client.status = .running ∧ ∃ session, client.session = some session ∧
      past.waiterOf request ∈ session.pending.waiters) ∨
    ∃ session, .taken session ∈ client.stops ∧ past.waiterOf request ∈ session.pending.waiters
  /-- A session that ends gets its answers at once, or a call to stop takes it. -/
  ends : ∀ action next told session, client.step? action = some (next, told) →
    client.session = some session →
    next.session.map (·.generation) ≠ some session.generation →
    next.pendingCount = 0 ∧
      (told = session.drained ∨ action = .stop ∧ .taken session ∈ next.stops)
  /-- The call can give the answers at any time. -/
  dismissed : ∀ index session, client.stops[index]? = some (.taken session) →
    ∃ next, client.step? (.dismiss index) = some (next, session.drained)

/-- What becomes of them when nobody acts between the parts of a call. -/
structure Settled (past : History) (client : DaemonClient) : Prop extends Served past client where
  /-- A request without an answer waits in the session of a daemon that runs. -/
  running : ∀ request ∈ past.unanswered, client.status = .running ∧
    ∃ session, client.session = some session ∧ past.waiterOf request ∈ session.pending.waiters
  /-- A session that ends leaves no request waiting: each that has no answer gets an empty one. -/
  drained : ∀ turn next told session, client.turn? turn = some (next, told) →
    client.session = some session →
    next.session.map (·.generation) ≠ some session.generation →
    next.pendingCount = 0 ∧
      told.Perm (past.unanswered.map fun request =>
        .answered ((past.waiterOf request).answer []))

/-- Balanced books say what becomes of requests. -/
theorem Served.of_accounted {past : History} (h : Accounted past client)
    (hclient : client.Coherent) : Served past client where
  accepted _ hmem := h.answered_subset hmem
  once := h.answered_nodup
  waits request hrequest := by
    rcases h.waits hrequest with ⟨session, hsession, hwaits⟩ | htaken
    · exact .inl ⟨hclient.status_of_session hsession, session, hsession, hwaits⟩
    · exact .inr htaken
  ends action next told session hstep hsession hends := by
    obtain ⟨hnone, hend⟩ := ((Step.of_step? hstep).session_cases hclient hsession).resolve_left hends
    exact ⟨pendingCount_of_none hnone, hend⟩
  dismissed index session hpoint := by
    refine ⟨(client.dismissLink session.generation).setStop index (.awaiting session.generation), ?_⟩
    show client.stopStep? index (.dismiss index) = _
    rw [stopStep?, hpoint]
    rfl

/-- Between whole calls no session is taken, and all requests that wait are in the current one. -/
theorem Settled.of_accounted {past : History} (h : Accounted past client)
    (hclient : client.Coherent) (hrested : client.Rested) : Settled past client where
  toServed := .of_accounted h hclient
  running request hrequest := by
    rcases h.waits hrequest with ⟨session, hsession, hwaits⟩ | ⟨session, htaken, -⟩
    · exact ⟨hclient.status_of_session hsession, session, hsession, hwaits⟩
    · exact absurd htaken (hrested.taken session)
  drained turn next told session hturn hsession hends := by
    obtain ⟨hnone, rfl⟩ := (turn?_session_cases hturn hclient hsession).resolve_left hends
    refine ⟨pendingCount_of_none hnone, ?_⟩
    have hstops : client.stops.flatMap StopPoint.waiters = [] := by
      refine List.flatMap_eq_nil_iff.2 fun point hpoint => ?_
      cases point with
      | taken taken => exact absurd hpoint (hrested.taken taken)
      | _ => rfl
    have hwaiters : client.waiters.map (·.2) = session.pending.waiters := by
      rw [waiters_of_session hsession, hstops, List.append_nil, Session.map_waiters]
    have hperm := h.waiters_perm.map fun waiter => Output.answered (waiter.answer [])
    rw [hwaiters, List.map_map] at hperm
    refine .trans (.of_eq ?_) hperm
    show (session.pending.waiters.map (·.answer [])).map Output.answered = _
    rw [List.map_map]
    rfl

/-- Every accepted request is answered once. In every history, whoever acts between the parts of a
call, no request is answered twice, and a request without an answer waits where it is going to get
one. When calls are not interrupted, it waits in the session of a daemon that runs, and when that
session ends, in whatever way, it gets an empty answer and no request waits any more. -/
theorem requests_answered_once (settings : DaemonSettings) :
    (∀ actions client told, (ofSettings settings).run? actions = some (client, told) →
      Served ((ofSettings settings).history actions) client) ∧
    ∀ turns client told, (ofSettings settings).turns? turns = some (client, told) →
      Settled ((ofSettings settings).history (actionsOf (ofSettings settings) turns)) client := by
  constructor
  · intro actions client told hrun
    exact .of_accounted (.of_run hrun) (.of_run hrun)
  · intro turns client told hturns
    have hrun := run?_actionsOf hturns
    exact .of_accounted (.of_run hrun) (.of_run hrun) (.of_turns hturns)

/-- Two requests, of which the daemon answers the first; a call to stop answers the other. -/
theorem requests_answered_once_stop :
    let turns : List Turn :=
      [.start (.ok ()), .request ["a"], .request ["b"],
        .link 1 (.produce [120, 10, 69, 78, 68, 10]), .link 1 (.read 6), .link 1 .push,
        .link 1 .push]
    let past := (ofSettings .standard).history (actionsOf (ofSettings .standard) turns)
    ∃ client told stopped answers, (ofSettings .standard).turns? turns = some (client, told) ∧
      Settled past client ∧ past.answers = [⟨0, ["x"], true⟩] ∧ past.unanswered = [1] ∧
      client.turn? .stop = some (stopped, answers) ∧ stopped.pendingCount = 0 ∧
      answers.Perm [.answered ⟨1, [], true⟩] := by
  intro turns past
  have hsettled := (requests_answered_once .standard).2 turns _ _ rfl
  exact ⟨_, _, _, _, rfl, hsettled, rfl, rfl, rfl,
    hsettled.drained .stop _ _ _ rfl rfl nofun⟩

end Toolbench.DaemonClient
