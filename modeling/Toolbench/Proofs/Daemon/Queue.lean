import Toolbench.Daemon.Pending
import Toolbench.Proofs.Trace

/-!
# Histories of a queue of requests

Requests are numbered in the order in which they came. `Account` says what a queue and its log have
to do with each other: the answered requests and behind them those that wait are all requests in
order, an answer is the batch of the call at which its request left the queue, and it is heard
unless the caller gave up before that. `Account.call` shows that every call keeps this, and
`answers_of_calls` draws the conclusions for whole histories.

A request that is answered moves from the queue to the answers and keeps its place among all
requests, so the two are looked at as one list (`places`).
-/

namespace Toolbench

/-- The request that an answer is for, with the word whether its caller still listened. -/
def Answer.waiter {α : Type} (answer : Answer α) : Waiter α :=
  ⟨answer.id, answer.heard⟩

namespace Pending

open Machine (Event)

variable {α : Type}

/-- A call on a queue. -/
inductive Call (α : Type) where
  | enqueue (id : α)
  | abandon (id : α)
  | resolveNext (batch : Batch)
  | drain
deriving DecidableEq, Repr

namespace Call

/-- The request that a call adds. -/
def enqueued? : Call α → Option α
  | enqueue id => some id
  | _ => none

/-- The request whose caller gives up. -/
def abandoned? : Call α → Option α
  | abandon id => some id
  | _ => none

/-- The call is for the request that has waited longest. -/
def isResolve : Call α → Bool
  | resolveNext _ => true
  | _ => false

/-- The call is for all requests. -/
def isDrain : Call α → Bool
  | drain => true
  | _ => false

/-- What a call has for the requests that it takes out of the queue. -/
def batch? : Call α → Option Batch
  | resolveNext batch => some batch
  | drain => some []
  | _ => none

end Call

/-- The queue after a call, and the answers that the call gives. A batch for which no request waits
is dropped. -/
def call [DecidableEq α] (pending : Pending α) : Call α → Pending α × List (Answer α)
  | .enqueue id => (pending.enqueue id, [])
  | .abandon id => (pending.abandon id, [])
  | .resolveNext batch =>
      match pending.resolveNext batch with
      | none => (pending, [])
      | some (answer, rest) => (rest, [answer])
  | .drain => (pending.drain.2, pending.drain.1)

/-- A call is possible at any time. -/
def step? [DecidableEq α] (pending : Pending α) (call : Call α) :
    Option (Pending α × List (Answer α)) :=
  some (pending.call call)

/-- What happened on a queue: the calls, each with the queue before and behind it and the answers
that it gave. -/
abbrev Log (α : Type) := List (Event (Pending α) (Call α) (Answer α))

/-! ## What a log says -/

section Log

variable (log : Log α)

/-- The requests that came, in order. -/
def enqueued : List α :=
  log.filterMap fun event => event.action.enqueued?

/-- The answers that were given, in order. -/
def given : List (Answer α) :=
  log.flatMap Event.told

/-- How many calls to resolve found a request. -/
def resolved : Nat :=
  log.countP fun event => event.action.isResolve && !event.told.isEmpty

/-- How many requests the calls to drain found. -/
def drained : Nat :=
  ((log.filter fun event => event.action.isDrain).flatMap Event.told).length

/-- There is an event of this kind, which may depend on what was before it. -/
def Happened (kind : Log α → Event (Pending α) (Call α) (Answer α) → Prop) : Prop :=
  ∃ past event later, log = past ++ event :: later ∧ kind past event

/-- The call that took the request with this number out of the queue had this batch for it. -/
def GaveTo (number : Nat) (batch : Batch) : Prop :=
  Happened log fun past event => (given past).length ≤ number ∧
    number < (given past).length + event.told.length ∧ event.action.batch? = some batch

/-- The caller of the request with this number gave up while the request was in the queue. -/
def GaveUp (number : Nat) : Prop :=
  Happened log fun past event => ∃ id, event.action.abandoned? = some id ∧
    (given past).length ≤ number ∧ (enqueued past)[number]? = some id

/-- All requests: those that were answered and behind them those that wait. -/
def places (pending : Pending α) : List (Waiter α) :=
  (given log).map Answer.waiter ++ pending.waiters

end Log

variable {log : Log α} {event : Event (Pending α) (Call α) (Answer α)} {pending : Pending α}
  {number : Nat}

/-! ## One event more -/

theorem enqueued_concat :
    enqueued (log ++ [event]) = enqueued log ++ event.action.enqueued?.toList := by
  cases h : event.action.enqueued? <;> simp [enqueued, h]

theorem given_concat : given (log ++ [event]) = given log ++ event.told := by
  simp [given]

theorem resolved_concat : resolved (log ++ [event])
    = resolved log + if event.action.isResolve && !event.told.isEmpty then 1 else 0 := by
  rw [resolved, List.countP_append, List.countP_singleton, resolved]

theorem drained_concat : drained (log ++ [event])
    = drained log + if event.action.isDrain then event.told.length else 0 := by
  rw [drained, List.filter_append, List.flatMap_append, List.length_append, ← drained]
  by_cases h : event.action.isDrain = true <;> simp [h]

/-- What happened in a longer log happened before its last event or is that event. -/
theorem happened_concat {kind : Log α → Event (Pending α) (Call α) (Answer α) → Prop} :
    Happened (log ++ [event]) kind ↔ Happened log kind ∨ kind log event := by
  constructor
  · rintro ⟨past, found, later, hlog, hkind⟩
    rcases List.eq_nil_or_concat later with rfl | ⟨front, last, rfl⟩
    · obtain ⟨rfl, hlast⟩ := List.append_inj' hlog rfl
      obtain rfl := List.singleton_inj.1 hlast
      exact .inr hkind
    · have hlog' : log ++ [event] = (past ++ found :: front) ++ [last] := by
        rw [hlog, List.concat_eq_append, List.append_assoc, List.cons_append]
      exact .inl ⟨past, found, front, List.append_inj_left' hlog' rfl, hkind⟩
  · rintro (⟨past, found, later, rfl, hkind⟩ | hkind)
    · exact ⟨past, found, later ++ [event], by simp, hkind⟩
    · exact ⟨log, event, [], rfl, hkind⟩

/-- Only a call to abandon makes a caller give up. -/
theorem gaveUp_concat (h : event.action.abandoned? = none) :
    GaveUp (log ++ [event]) number ↔ GaveUp log number := by
  refine happened_concat.trans (or_iff_left ?_)
  rintro ⟨id, haction, -⟩
  exact nomatch h.symm.trans haction

/-- With a call to abandon a caller gives up whose request is in the queue. -/
theorem gaveUp_concat_abandon {id : α} (h : event.action = .abandon id) :
    GaveUp (log ++ [event]) number ↔
      GaveUp log number ∨ (given log).length ≤ number ∧ (enqueued log)[number]? = some id := by
  refine happened_concat.trans (or_congr_right ?_)
  rw [h]
  constructor
  · rintro ⟨other, hother, hlate, hget⟩
    obtain rfl : id = other := Option.some.inj hother
    exact ⟨hlate, hget⟩
  · rintro ⟨hlate, hget⟩
    exact ⟨id, rfl, hlate, hget⟩

/-- Only the caller of a request that came can give up. -/
theorem GaveUp.lt (h : GaveUp log number) : number < (enqueued log).length := by
  obtain ⟨past, event, later, rfl, id, -, -, hid⟩ := h
  have hpast : number < (enqueued past).length := (List.getElem?_eq_some_iff.1 hid).1
  rw [enqueued, List.filterMap_append, List.length_append]
  exact Nat.lt_of_lt_of_le hpast (Nat.le_add_right _ _)

/-! ## Places -/

theorem getElem?_places_left (hlt : number < (given log).length) :
    (places log pending)[number]? = (given log)[number]?.map Answer.waiter := by
  rw [places, List.getElem?_append_left (by simpa using hlt), List.getElem?_map]

theorem getElem?_places_right (place : Nat) :
    (places log pending)[(given log).length + place]? = pending.waiters[place]? := by
  rw [places, List.getElem?_append_right (by simp), List.length_map, Nat.add_sub_cancel_left]

section Abandon

variable [DecidableEq α] (pending) (id : α)

/-- A caller that gives up leaves the requests in the queue. -/
theorem map_id_abandon :
    (pending.abandon id).waiters.map Waiter.id = pending.waiters.map Waiter.id := by
  rw [abandon, List.map_map]
  refine List.map_congr_left fun waiter _ => ?_
  show (if _ then _ else _ : Waiter α).id = _
  split <;> rfl

variable {pending id}

/-- It no longer listens, and the others go on as before. -/
theorem getElem?_abandon {place : Nat} {waiter : Waiter α}
    (h : (pending.abandon id).waiters[place]? = some waiter) :
    ∃ old, pending.waiters[place]? = some old ∧
      (waiter.listening = false ↔ old.listening = false ∨ old.id = id) := by
  rw [abandon, List.getElem?_map, Option.map_eq_some_iff] at h
  obtain ⟨old, hold, rfl⟩ := h
  refine ⟨old, hold, ?_⟩
  by_cases hid : old.id = id <;> simp [hid]

end Abandon

/-! ## What every call keeps -/

/-- What a queue and its log have to do with each other. -/
structure Account (log : Log α) (pending : Pending α) : Prop where
  /-- The requests that were answered and behind them those that wait are all that came. -/
  in_order : (places log pending).map Waiter.id = enqueued log
  /-- A caller no longer listens exactly when it gave up while its request waited. -/
  listening : ∀ number waiter, (places log pending)[number]? = some waiter →
    (waiter.listening = false ↔ GaveUp log number)
  /-- An answer is the batch of the call at which its request left the queue. -/
  batches : ∀ number answer, (given log)[number]? = some answer → GaveTo log number answer.batch
  /-- Every answer is one of a call to resolve or of a call to drain. -/
  count : (given log).length = resolved log + drained log

namespace Account

/-- Before the first call there is nothing. -/
theorem initial : Account [] (empty : Pending α) where
  in_order := rfl
  listening _ _ h := nomatch h
  batches _ _ h := nomatch h
  count := rfl

variable {next : Pending α}

/-- The places and the answers are numbered alike. -/
theorem getElem?_places (h : Account log pending) {waiter : Waiter α}
    (hplace : (places log pending)[number]? = some waiter) :
    (enqueued log)[number]? = some waiter.id := by
  rw [← h.in_order, List.getElem?_map, hplace]
  rfl

/-- The requests that wait are numbered behind those that were answered. -/
theorem waits (h : Account log pending) {place : Nat} {waiter : Waiter α}
    (hwaiter : pending.waiters[place]? = some waiter) :
    (enqueued log)[(given log).length + place]? = some waiter.id ∧
      (waiter.listening = false ↔ GaveUp log ((given log).length + place)) := by
  have hplace : (places log pending)[(given log).length + place]? = some waiter := by
    rw [getElem?_places_right, hwaiter]
  exact ⟨h.getElem?_places hplace, h.listening _ _ hplace⟩

/-- The answers that a call gives are new ones, behind those that were given before. -/
theorem batches_concat (h : Account log pending)
    (htold : ∀ answer ∈ event.told, event.action.batch? = some answer.batch) (number : Nat)
    (answer : Answer α) (hanswer : (given (log ++ [event]))[number]? = some answer) :
    GaveTo (log ++ [event]) number answer.batch := by
  rw [given_concat] at hanswer
  refine happened_concat.2 ?_
  by_cases hold : number < (given log).length
  · rw [List.getElem?_append_left hold] at hanswer
    exact .inl (h.batches number answer hanswer)
  · have hlt : number < (given log ++ event.told).length :=
      (List.getElem?_eq_some_iff.1 hanswer).1
    rw [List.length_append] at hlt
    rw [List.getElem?_append_right (by omega)] at hanswer
    exact .inr ⟨by omega, hlt, htold answer (List.mem_of_getElem? hanswer)⟩

/-- A call that takes requests out of the queue and answers them leaves every request in its
place. -/
theorem moved (h : Account log pending)
    (hmoved : event.told.map Answer.waiter ++ next.waiters = pending.waiters)
    (htold : ∀ answer ∈ event.told, event.action.batch? = some answer.batch)
    (hcount : event.told.length = (if event.action.isResolve && !event.told.isEmpty then 1 else 0)
      + if event.action.isDrain then event.told.length else 0)
    (henqueued : event.action.enqueued? = none) (habandoned : event.action.abandoned? = none) :
    Account (log ++ [event]) next := by
  have hplaces : places (log ++ [event]) next = places log pending := by
    rw [places, given_concat, List.map_append, List.append_assoc, hmoved, places]
  constructor
  case in_order =>
    rw [hplaces, h.in_order, enqueued_concat, henqueued, Option.toList_none, List.append_nil]
  case listening =>
    rw [hplaces]
    intro number waiter hwaiter
    rw [h.listening number waiter hwaiter, gaveUp_concat habandoned]
  case batches => exact h.batches_concat htold
  case count =>
    rw [given_concat, List.length_append, h.count, resolved_concat, drained_concat]
    omega

/-- A request that comes is put behind all others, and its caller listens. -/
theorem enqueue (h : Account log pending) (id : α) :
    Account (log ++ [⟨pending, .enqueue id, pending.enqueue id, []⟩]) (pending.enqueue id) := by
  have hplaces : places (log ++ [⟨pending, .enqueue id, pending.enqueue id, []⟩])
      (pending.enqueue id) = places log pending ++ [⟨id, true⟩] := by
    rw [places, given_concat, List.append_nil, places, List.append_assoc]
    rfl
  have hlength : (places log pending).length = (enqueued log).length := by
    rw [← h.in_order, List.length_map]
  constructor
  case in_order =>
    rw [hplaces, List.map_append, h.in_order, enqueued_concat]
    rfl
  case listening =>
    intro number waiter hwaiter
    rw [hplaces] at hwaiter
    rw [gaveUp_concat rfl]
    by_cases hold : number < (places log pending).length
    · rw [List.getElem?_append_left hold] at hwaiter
      exact h.listening number waiter hwaiter
    · rw [List.getElem?_append_right (by omega)] at hwaiter
      obtain rfl := List.mem_singleton.1 (List.mem_of_getElem? hwaiter)
      refine iff_of_false (by simp) fun hgave => ?_
      have hlt := hgave.lt
      omega
  case batches => exact h.batches_concat (fun _ hanswer => nomatch hanswer)
  case count =>
    rw [given_concat, resolved_concat, drained_concat]
    simpa using h.count

/-- A caller that gives up no longer listens if its request still waits. -/
theorem abandon [DecidableEq α] (h : Account log pending) (id : α) :
    Account (log ++ [⟨pending, .abandon id, pending.abandon id, []⟩]) (pending.abandon id) := by
  have hplaces : places (log ++ [⟨pending, .abandon id, pending.abandon id, []⟩])
      (pending.abandon id) = places log (pending.abandon id) := by
    rw [places, given_concat, List.append_nil, places]
  constructor
  case in_order =>
    have hsame : (places log (pending.abandon id)).map Waiter.id
        = (places log pending).map Waiter.id := by
      rw [places, List.map_append, map_id_abandon, ← List.map_append, places]
    rw [hplaces, hsame, enqueued_concat]
    exact h.in_order.trans (List.append_nil _).symm
  case listening =>
    intro number waiter hwaiter
    rw [hplaces] at hwaiter
    rw [gaveUp_concat_abandon rfl]
    -- Only requests that wait are looked at, so the caller of an answered one keeps its mark.
    rcases Nat.lt_or_ge number (given log).length with hlt | hge
    · rw [getElem?_places_left hlt] at hwaiter
      have hplace : (places log pending)[number]? = some waiter :=
        (getElem?_places_left hlt).trans hwaiter
      refine (h.listening number waiter hplace).trans (or_iff_left ?_).symm
      rintro ⟨hlate, -⟩
      omega
    · obtain ⟨place, rfl⟩ := Nat.exists_eq_add_of_le hge
      rw [getElem?_places_right] at hwaiter
      obtain ⟨old, hold, hlistening⟩ := getElem?_abandon hwaiter
      obtain ⟨hid, hgone⟩ := h.waits hold
      rw [hlistening, hgone, hid, Option.some.injEq, and_iff_right hge]
  case batches => exact h.batches_concat (fun _ hanswer => nomatch hanswer)
  case count =>
    rw [given_concat, resolved_concat, drained_concat]
    simpa using h.count

/-- Every call keeps the account. -/
theorem call [DecidableEq α] (h : Account log pending) (asked : Call α) :
    Account (log ++ [⟨pending, asked, (pending.call asked).1, (pending.call asked).2⟩])
      (pending.call asked).1 := by
  cases asked with
  | enqueue id => exact h.enqueue id
  | abandon id => exact h.abandon id
  | resolveNext batch =>
      obtain ⟨waiters⟩ := pending
      cases waiters with
      | nil => exact h.moved rfl (fun _ hanswer => nomatch hanswer) rfl rfl rfl
      | cons waiter waiters =>
          refine h.moved rfl (fun answer hanswer => ?_) rfl rfl rfl
          obtain rfl := List.mem_singleton.1 hanswer
          rfl
  | drain =>
      have htold : ∀ answer ∈ pending.drain.1, some [] = some answer.batch := by
        intro answer hanswer
        obtain ⟨waiter, -, rfl⟩ := List.mem_map.1 hanswer
        rfl
      refine h.moved ?_ htold (Nat.zero_add _).symm rfl rfl
      show (pending.waiters.map (·.answer [])).map Answer.waiter ++ [] = pending.waiters
      rw [List.append_nil, List.map_map]
      exact List.map_id pending.waiters

end Account

/-! ## Whole histories -/

/-- The log of calls on a queue that is empty at first. -/
def logOf [DecidableEq α] (calls : List (Call α)) : Log α :=
  Machine.trace step? empty calls

/-- What a queue has done for the requests of its log, and what it will do at the next call. -/
structure Fair [DecidableEq α] (log : Log α) (pending : Pending α) : Prop where
  /-- The requests that were answered, each once, and behind them those that wait are all that
  came, in the order in which they came. -/
  in_order : (given log).map Answer.id ++ pending.waiters.map Waiter.id = enqueued log
  /-- An answer is the batch of the call at which its request left the queue, and nobody hears it
  exactly when the caller gave up before that. -/
  answers : ∀ number answer, (given log)[number]? = some answer →
    GaveTo log number answer.batch ∧ (answer.heard = false ↔ GaveUp log number)
  /-- A batch is dropped exactly when no request waits for it. -/
  drops : ∀ batch, (pending.resolveNext batch = none ↔ pending.size = 0) ∧
    (pending.size = 0 → pending.call (.resolveNext batch) = (pending, []))
  /-- Otherwise the first request that waits gets it, also when its caller gave up. -/
  resolves : ∀ batch, pending.size ≠ 0 → ∃ answer,
    pending.call (.resolveNext batch) = (⟨pending.waiters.tail⟩, [answer]) ∧
      (enqueued log)[(given log).length]? = some answer.id ∧ answer.batch = batch ∧
      (answer.heard = false ↔ GaveUp log (given log).length)
  /-- A drain leaves no request waiting. It counts them all and gives each an empty batch. -/
  drains : pending.drain.2 = empty ∧ pending.drain.1.length = pending.size ∧
    ∀ place answer, pending.drain.1[place]? = some answer →
      (enqueued log)[(given log).length + place]? = some answer.id ∧ answer.batch = [] ∧
        (answer.heard = false ↔ GaveUp log ((given log).length + place))
  /-- The requests that came are those that wait, those that were resolved and those that were
  drained. -/
  size_eq : pending.size + resolved log + drained log = (enqueued log).length

namespace Account

/-- A queue that agrees with its log is fair. -/
theorem fair [DecidableEq α] (h : Account log pending) : Fair log pending where
  in_order := by
    have hplaces := h.in_order
    rw [places, List.map_append, List.map_map] at hplaces
    exact hplaces
  answers number answer hanswer := by
    have hplace : (places log pending)[number]? = some answer.waiter := by
      rw [getElem?_places_left (List.getElem?_eq_some_iff.1 hanswer).1, hanswer]
      rfl
    exact ⟨h.batches number answer hanswer, h.listening number _ hplace⟩
  drops batch := by
    obtain ⟨waiters⟩ := pending
    cases waiters with
    | nil => exact ⟨iff_of_true rfl rfl, fun _ => rfl⟩
    | cons waiter waiters => exact ⟨iff_of_false nofun nofun, nofun⟩
  resolves batch hsize := by
    obtain ⟨waiters⟩ := pending
    cases waiters with
    | nil => exact absurd rfl hsize
    | cons waiter waiters =>
        have hfirst : (waiter :: waiters)[0]? = some waiter := rfl
        obtain ⟨hid, hheard⟩ := h.waits hfirst
        exact ⟨waiter.answer batch, rfl, hid, rfl, hheard⟩
  drains := by
    refine ⟨rfl, List.length_map _, fun place answer hanswer => ?_⟩
    rw [drain, List.getElem?_map, Option.map_eq_some_iff] at hanswer
    obtain ⟨waiter, hwaiter, rfl⟩ := hanswer
    obtain ⟨hid, hheard⟩ := h.waits hwaiter
    exact ⟨hid, rfl, hheard⟩
  size_eq := by
    have hall : (places log pending).length = (enqueued log).length := by
      rw [← h.in_order, List.length_map]
    rw [places, List.length_append, List.length_map, h.count] at hall
    rw [size]
    omega

end Account

/-- Every sequence of calls is possible. -/
theorem exists_run? [DecidableEq α] (pending : Pending α) (calls : List (Call α)) :
    ∃ final answers, Machine.run? step? pending calls = some (final, answers) := by
  induction calls generalizing pending with
  | nil => exact ⟨pending, [], rfl⟩
  | cons asked calls ih =>
      obtain ⟨final, later, hlater⟩ := ih (pending.call asked).1
      exact ⟨final, _, (Machine.run?_cons_eq_some step?).2 ⟨_, _, later, rfl, hlater, rfl⟩⟩

/-- Every sequence of calls on an empty queue is possible, and the queue is fair to all requests
that came: the answers so far, the answers to the next call and the number of requests that wait
are those of their order. -/
theorem answers_of_calls [DecidableEq α] (calls : List (Call α)) :
    ∃ pending, Machine.run? step? empty calls = some (pending, given (logOf calls)) ∧
      (logOf calls).map Event.action = calls ∧ Fair (logOf calls) pending := by
  obtain ⟨pending, answers, hrun⟩ := exists_run? (empty : Pending α) calls
  have hanswers := Machine.told_eq_flatMap_trace step? hrun
  refine ⟨pending, hrun.trans (by rw [hanswers]; rfl), Machine.map_action_trace step? hrun, ?_⟩
  have haccount : Account (logOf calls) pending := by
    refine Machine.run?_trace_invariant step? ?_ hrun Account.initial
    intro past before asked next told h hstep
    have hcall := h.call asked
    rw [Option.some.inj hstep] at hcall
    exact hcall
  exact haccount.fair

/-- The first caller gives up, so nobody hears its answer; the second request is drained, and the
last batch is for nobody. -/
example : Machine.run? step? empty [.enqueue 'a', .enqueue 'b', .abandon 'a', .resolveNext ["x"],
    .drain, .resolveNext ["y"]] = some (empty, [⟨'a', ["x"], false⟩, ⟨'b', [], true⟩]) := by
  decide

end Pending

end Toolbench
